import VexDB.VexFs.System

/-!
# What the statements do

For every function that reads and writes inside one transaction: when it
succeeds, what it returns, and the state it leaves.
-/

namespace VexDB.VexFs

open Storage Option Tx Db
open Tx (bind_ok rejectIf_ok pure_ok reading_ok write_ok ReadOnly)

variable {H : Type} {version number : Nat} {node : Node} {parts : List Name} {name : Name} {db after
  : Db H} {inode : Nat} {env : Env}

/-! ## Reads -/

theorem rootNode_ok :
    rootNode db = .ok (node, after) ↔ db.liveNode db.workspace.rootInode = some node ∧ after = db :=
  require_ok

theorem resolve_ok :
    resolve parts db = .ok (node, after) ↔ db.tryResolve parts = some node ∧ after = db := by
  unfold resolve
  simp only [bind_ok, rootNode_ok, require_ok]
  constructor
  · rintro ⟨root, _, ⟨_, rfl⟩, found⟩
    exact found
  · rintro ⟨found, rfl⟩
    obtain ⟨root, rootFound, _⟩ := bind_eq_some_iff.1 found
    exact ⟨root, after, ⟨rootFound, rfl⟩, found, rfl⟩

/-- The parent directory and the last name of a path. -/
def Db.parentOf (db : Db H) (parts : List Name) (parent : Node) (name : Name) : Prop :=
  parts.getLast? = some name ∧ db.tryResolve parts.dropLast = some parent ∧
    parent.row.kind = .directory

theorem resolveParent_ok :
    resolveParent parts db = .ok ((parent, name), after) ↔
      db.parentOf parts parent name ∧ after = db := by
  unfold resolveParent parentOf
  cases parts.getLast? with
  | none => simp [Tx.fail_ok]
  | some =>
    simp only [bind_ok, resolve_ok, rejectIf_ok, pure_ok, Prod.mk.injEq, not_not,
      some.injEq, and_assoc, exists_and_left, exists_eq_left, exists_const]
    constructor
    · rintro ⟨_, found, directory, rfl, rfl, rfl⟩
      exact ⟨rfl, found, directory, rfl⟩
    · rintro ⟨rfl, found, directory, rfl⟩
      exact ⟨parent, found, directory, rfl, rfl, rfl⟩

theorem checked_ok {α : Type} {look : Db H -> Except SqlError α} {value : α} :
    checked look db = .ok (value, after) ↔ look db = .ok value ∧ after = db := by
  unfold checked
  cases look db with
  | error => simp [Except.map]
  | ok =>
    simp only [Except.map, Except.ok.injEq, Prod.mk.injEq]
    exact and_congr_right fun _ => eq_comm

theorem nodeById_ok :
    nodeById inode db = .ok (node, after) ↔
      (node.id = inode ∧ db.inodes.get inode = some node.row) ∧ after = db := by
  unfold nodeById
  rw [require_ok]
  apply and_congr_left
  intro _
  obtain ⟨_, row⟩ := node
  simp only [map_eq_some_iff, Node.mk.injEq]
  constructor
  · rintro ⟨_, found, rfl, rfl⟩
    exact ⟨rfl, found⟩
  · rintro ⟨rfl, found⟩
    exact ⟨row, found, rfl, rfl⟩

/-! ## Admission -/

namespace Db

/-- The quota lets a new inode of a kind in. -/
def admitsInode (db : Db H) (kind : Kind) : Prop :=
  ¬(kind ≠ .directory ∧
    (db.workspace.quotaMaxFiles.any fun limit => decide (db.workspace.liveFiles ≥ limit)) = true)

/-- The size that the counter of live bytes has for an inode. -/
def countedSize (db : Db H) (inode : Nat) : Option Nat :=
  ((db.inodes.get inode).filter Inode.counted).map Inode.size

/-- The quota lets an inode take a size. -/
def admitsSize (db : Db H) (inode newSize : Nat) : Prop :=
  let oldSize := (db.countedSize inode).getD 0
  ¬(db.workspace.quotaMaxFileBytes.any fun limit =>
      decide (newSize > limit) &&
        ((db.countedSize inode).isNone || decide (newSize ≥ oldSize))) = true ∧
  ¬((db.countedSize inode).isSome && decide (newSize ≥ oldSize) &&
      db.workspace.quotaMaxBytes.any fun limit =>
        decide (newSize > limit) ||
          decide (db.workspace.liveBytes - oldSize > (limit : Int) - newSize)) = true

end Db

theorem checkQuotaForNewInode_ok :
    checkQuotaForNewInode kind db = .ok (nothing, after) ↔ db.admitsInode kind ∧ after = db := by
  unfold checkQuotaForNewInode admitsInode
  simp only [bind_ok, reading_ok, rejectIf_ok, and_assoc, exists_and_left, exists_eq_left]

theorem checkQuotaForContentSize_ok :
    checkQuotaForContentSize inode newSize db = .ok (nothing, after) ↔
      db.admitsSize inode newSize ∧ after = db := by
  unfold checkQuotaForContentSize admitsSize countedSize
  simp only [bind_ok, reading_ok, rejectIf_ok, isNone_map, isSome_map,
    id_eq, and_assoc, exists_and_left, exists_eq_left, exists_const]

/-! ## Names -/

/-- The id of the next inode. -/
def Db.nextInode (db : Db H) : Nat := db.inodes.fresh db.elsewhere.inode

theorem createInode_ok :
    createInode env kind mode db = .ok (inode, after) ↔ db.admitsInode kind ∧ inode = db.nextInode ∧
        after = db.insertInode inode (newInode env kind mode) := by
  unfold createInode
  simp only [bind_ok, checkQuotaForNewInode_ok, reading_ok, write_ok, pure_ok,
    and_assoc, exists_and_left, exists_eq_left, exists_const]
  refine and_congr_right fun _ => and_congr_right ?_
  rintro rfl
  rfl

theorem insertDentry_ok :
    insertDentry key inode db = .ok (nothing, after) ↔
      db.dentries.get key = none ∧ after = db.insertDentry key inode := by
  unfold insertDentry
  rw [Tx.attempt_unless_ok, not_isSome_iff_eq_none]

/-- The state after `AddDentry`. -/
def Db.addedDentry (db : Db H) (env : Env) (parent : Nat) (name : Name) (inode : Nat) : Db H :=
  ((db.insertDentry (parent, name) inode).inheritAcl parent inode).touchDirectory env parent

/-- Inheriting touches the access control entries. -/
theorem Db.inheritAcl_frame (db : Db H) (parent inode : Nat) :
    ∃ entries dirty, db.inheritAcl parent inode =
      { db with aclEntries := entries, dirtyAcl := dirty } := by
  apply List.foldlRecOn (motive := fun after : Db H => ∃ entries dirty, after =
    ({ db with aclEntries := entries, dirtyAcl := dirty } : Db H))
  · exact ⟨_, _, rfl⟩
  · rintro _ ⟨_, _, rfl⟩ _ _
    unfold insertAclOrIgnore
    split_ifs
    · exact ⟨_, _, rfl⟩
    · exact ⟨_, _, rfl⟩

@[simp] theorem Db.versions_addedDentry (db : Db H) (env : Env) (parent : Nat) (name : Name)
    (inode : Nat) : (db.addedDentry env parent name inode).versions = db.versions := by
  obtain ⟨_, _, same⟩ := (db.insertDentry (parent, name) inode).inheritAcl_frame parent inode
  unfold addedDentry
  rw [same]
  rfl

theorem addDentry_ok :
    addDentry env parent name inode db = .ok (nothing, after) ↔
      db.dentries.get (parent, name) = none ∧ after = db.addedDentry env parent name inode := by
  unfold addDentry addedDentry
  simp only [bind_ok, insertDentry_ok, write_ok, and_assoc, exists_and_left, exists_eq_left,
    exists_const]

theorem freeName_ok :
    freeName parts db = .ok ((parent, name), after) ↔
      (db.parentOf parts parent name ∧ db.findChild parent.id name = none) ∧ after = db := by
  unfold freeName
  simp only [bind_ok, reading_ok, rejectIf_ok, pure_ok, Prod.exists, resolveParent_ok,
    Prod.mk.injEq, and_assoc, exists_and_left, exists_eq_left, exists_const]
  constructor
  · rintro ⟨_, _, found, free, rfl, rfl, rfl⟩
    exact ⟨found, by simpa using free, rfl⟩
  · rintro ⟨found, free, rfl⟩
    exact ⟨parent, name, found, by simp [free], rfl, rfl, rfl⟩

instance {α : Type} {look : Db H -> Except SqlError α} : ReadOnly (checked look : Sql H α) :=
  ⟨fun returned => (checked_ok.1 returned).2⟩

instance : ReadOnly (rootNode : Sql H Node) := by
  unfold rootNode
  infer_instance

instance : ReadOnly (nodeById inode : Sql H Node) := by
  unfold nodeById
  infer_instance

instance {parts : List Name} : ReadOnly (resolve parts : Sql H Node) := by
  unfold resolve
  infer_instance

instance {parts : List Name} : ReadOnly (resolveParent parts : Sql H (Node × Name)) where
  same {_ place _} returned := by
    obtain ⟨_, _⟩ := place
    exact (resolveParent_ok.1 returned).2

instance {parts : List Name} : ReadOnly (freeName parts : Sql H (Node × Name)) := by
  unfold freeName
  infer_instance

instance {newSize : Nat} : ReadOnly (checkQuotaForContentSize inode newSize : Sql H Unit) :=
  ⟨fun returned => (checkQuotaForContentSize_ok.1 returned).2⟩

/-! ## Commits -/

/-- The state after `CreateCommit`. -/
def Db.committed (db : Db H) (env : Env) : Db H :=
  ((db.insertCommit env db.nextCommit).flushHistoryChanges db.nextCommit).advanceHead db.nextCommit

theorem createCommit_ok :
    createCommit env db = .ok (commit, after) ↔
      commit = db.nextCommit ∧ after = db.committed env := by
  unfold createCommit committed
  simp only [bind_ok, reading_ok, write_ok, pure_ok, and_assoc, exists_and_left,
    exists_eq_left, exists_const]

theorem commitMetadataChange_ok :
    commitMetadataChange env inode db = .ok (nothing, after) ↔
      after = if db.hasPendingContentPublish inode then db else db.committed env := by
  unfold commitMetadataChange
  simp only [bind_ok, reading_ok, and_assoc, exists_and_left, exists_eq_left]
  split_ifs
  · rw [pure_ok]
    exact and_iff_right rfl
  · simp only [bind_ok, createCommit_ok, pure_ok, and_assoc, exists_and_left, exists_eq_left,
      true_and]

/-! ## Versions -/

section

variable [DecidableEq H] [Digest H] {previous : Option Nat}

/-- The manifest that the chunks of a new version are compared with. -/
def Db.previousOf (db : Db H) (inode version : Nat) (previous : Option Nat) : Prop :=
  if version > 0 then
    ∃ storage, db.resolveVersionStorage inode version = .ok storage ∧
      previous = some storage.manifest
  else previous = none

omit [Digest H] in
theorem previousManifest_ok :
    previousManifest inode version db = .ok (previous, after) ↔
      db.previousOf inode version previous ∧ after = db := by
  unfold previousManifest previousOf
  split_ifs with positive
  · simp only [bind_ok, checked_ok, pure_ok, and_assoc, exists_and_left, exists_eq_left]
    exact ⟨fun ⟨storage, found, same, last⟩ => ⟨⟨storage, found, same⟩, last⟩,
      fun ⟨⟨storage, found, same⟩, last⟩ => ⟨storage, found, same, last⟩⟩
  · rw [pure_ok]

section

omit [DecidableEq H] [Digest H]

/-- The state after the compare-and-set of a new version. -/
def Db.advanced (db : Db H) (env : Env) (inode size version : Nat) : Db H :=
  db.updateInode inode fun row =>
    { row with
      size := size
      currentVersion := version + 1
      updatedAt := env.now
      changedAt := env.now }

theorem advanceVersion_ok :
    advanceVersion env inode size version conflict db = .ok (nothing, after) ↔
      (∃ row, db.inodes.get inode = some row ∧ row.currentVersion = version) ∧
        after = db.advanced env inode size version := by
  unfold advanceVersion
  rw [attempt_ok]
  cases found : db.inodes.get inode with
  | none => simp
  | some row =>
    by_cases current : row.currentVersion = version
    · simp only [any_some, current, decide_true, if_true, Except.ok.injEq,
        some.injEq, exists_eq_left', true_and]
      exact eq_comm
    · simp [current]

theorem insertVersion_ok :
    insertVersion inode number row db = .ok (nothing, after) ↔
      db.versions.get (inode, number) = none ∧
        after = { db with versions := db.versions.set (inode, number) row } := by
  unfold insertVersion
  rw [Tx.attempt_unless_ok, not_isSome_iff_eq_none]

end

/-- The id of the next manifest. -/
def Db.nextManifest (db : Db H) : Nat := db.manifests.fresh db.elsewhere.manifest

/-- The digest of a content given by its pieces. -/
def contentChecksum (size : Nat) (pieces : List (Nat × Option Nat × Bytes)) : H :=
  Digest.manifestChecksum size contentChunkBytes (chunkSums pieces)

theorem storePieces_ok :
    storePieces inode size previous pieces db = .ok ((manifest, checksum), after) ↔
      (manifest = db.nextManifest ∧ checksum = contentChecksum size pieces) ∧
        after = db.insertManifest inode manifest size previous pieces := by
  unfold storePieces
  simp only [bind_ok, reading_ok, write_ok, pure_ok, Prod.mk.injEq, and_assoc,
    exists_and_left, exists_eq_left, exists_const]
  refine and_congr_right ?_
  rintro rfl
  rfl

/-- A database with a new version row. -/
def Db.withVersion (db : Db H) (inode number : Nat) (row : Version H) : Db H :=
  { db with versions := db.versions.set (inode, number) row }

/-- The state after a version with content is stored: the inode row advances, the
change is committed, then the manifest and the version row are inserted. -/
def Db.storedVersion (db : Db H) (env : Env) (inode version size : Nat) (previous : Option Nat)
    (pieces : List (Nat × Option Nat × Bytes)) : Db H :=
  let committed := (db.advanced env inode size version).committed env
  let stored := committed.insertManifest inode committed.nextManifest size previous pieces
  stored.withVersion inode (version + 1)
    ⟨stored.nextVersionId, (db.advanced env inode size version).nextCommit,
      some committed.nextManifest, size, contentChecksum size pieces, none, env.seconds⟩

/-- What every way of storing a version checks. -/
structure Db.Storable (db : Db H) (inode version size : Nat) (previous : Option Nat) : Prop where
  previous : db.previousOf inode version previous
  admitted : db.admitsSize inode size
  current : ∃ row, db.inodes.get inode = some row ∧ row.currentVersion = version

/-- Storing a chunk touches the chunks and the manifest's list of them. -/
theorem Db.storeChunk_frame (inode manifest : Nat) (previous : Option Nat) (db : Db H)
    (stored : Db.NewChunks H) (piece : Nat × Option Nat × Bytes) :
    ∃ entries chunks, (storeChunk inode manifest previous (db, stored) piece).1 =
      { db with manifestChunks := entries, chunks := chunks } := by
  simp only [storeChunk]
  split
  · exact ⟨_, db.chunks, rfl⟩
  · exact ⟨_, _, rfl⟩

/-- Storing a manifest touches the manifests, the chunks and the lists of chunks. -/
theorem Db.insertManifest_frame (db : Db H) (inode manifest size : Nat) (previous : Option Nat)
    (pieces : List (Nat × Option Nat × Bytes)) :
    ∃ manifests entries chunks, db.insertManifest inode manifest size previous pieces =
      { db with manifests := manifests, manifestChunks := entries, chunks := chunks } := by
  unfold insertManifest
  generalize ([] : Db.NewChunks H) = stored
  generalize start : ({ db with manifests := _ } : Db H) = first
  have frame : ∃ manifests entries chunks, first =
      { db with manifests := manifests, manifestChunks := entries, chunks := chunks } :=
    ⟨_, _, _, start.symm⟩
  clear start
  induction pieces generalizing first stored with
  | nil => exact frame
  | cons piece pieces step =>
    obtain ⟨manifests, entries, chunks, rfl⟩ := frame
    obtain ⟨newEntries, newChunks, result⟩ := storeChunk_frame inode manifest previous
      { db with manifests := manifests, manifestChunks := entries, chunks := chunks } stored piece
    rw [List.foldl_cons]
    rcases stage : storeChunk inode manifest previous
      ({ db with manifests := manifests, manifestChunks := entries, chunks := chunks }, stored)
        piece with ⟨next, kept⟩
    rw [stage] at result
    exact step _ _ ⟨manifests, newEntries, newChunks, result⟩

@[simp] theorem insertManifest_versions (db : Db H) (inode manifest size : Nat)
    (previous : Option Nat) (pieces : List (Nat × Option Nat × Bytes)) :
    (db.insertManifest inode manifest size previous pieces).versions = db.versions := by
  obtain ⟨_, _, _, same⟩ := db.insertManifest_frame inode manifest size previous pieces
  rw [same]

theorem storeVersion_ok :
    storeVersion env inode version content db = .ok (number, after) ↔
      number = version + 1 ∧ db.versions.get (inode, version + 1) = none ∧
        ∃ previous, db.Storable inode version content.length previous ∧
          after = db.storedVersion env inode version content.length previous
            (contentPieces content) := by
  unfold storeVersion storeManifest
  simp only [bind_ok, previousManifest_ok, checkQuotaForContentSize_ok, advanceVersion_ok,
    createCommit_ok, Prod.exists, storePieces_ok, reading_ok, insertVersion_ok, pure_ok,
    and_assoc, exists_and_left, exists_eq_left, exists_const]
  constructor
  · rintro ⟨previous, earlier, admitted, current, free, rfl, rfl⟩
    rw [insertManifest_versions] at free
    exact ⟨rfl, free, previous, ⟨earlier, admitted, current⟩, rfl⟩
  · rintro ⟨rfl, _, previous, ⟨earlier, admitted, current⟩, rfl⟩
    exact ⟨previous, earlier, admitted, current, by rwa [insertManifest_versions], rfl, rfl⟩

/-- The state after an alias of an earlier version is stored. -/
def Db.storedAlias (db : Db H) (env : Env) (inode version : Nat) (source : VersionStorage H) :
    Db H :=
  let committed := (db.advanced env inode source.size version).committed env
  committed.withVersion inode (version + 1)
    ⟨committed.nextVersionId, (db.advanced env inode source.size version).nextCommit, none,
      source.size, source.checksum, some source.canonicalVersion, env.seconds⟩

omit [Digest H] in
theorem storeVersionFromVersion_ok :
    storeVersionFromVersion env inode version sourceVersion db = .ok (number, after) ↔
      number = version + 1 ∧ db.versions.get (inode, version + 1) = none ∧
        ∃ source, db.resolveVersionStorage inode sourceVersion = .ok source ∧
          db.admitsSize inode source.size ∧
          (∃ row, db.inodes.get inode = some row ∧ row.currentVersion = version) ∧
          after = db.storedAlias env inode version source := by
  unfold storeVersionFromVersion
  simp only [bind_ok, checked_ok, checkQuotaForContentSize_ok, advanceVersion_ok,
    createCommit_ok, reading_ok, insertVersion_ok, pure_ok, and_assoc, exists_and_left,
    exists_eq_left, exists_const]
  constructor
  · rintro ⟨source, found, admitted, current, free, rfl, rfl⟩
    exact ⟨rfl, free, source, found, admitted, current, rfl⟩
  · rintro ⟨rfl, free, source, found, admitted, current, rfl⟩
    exact ⟨source, found, admitted, current, free, rfl, rfl⟩

/-- What publishing staged content checks before it changes anything. -/
structure Db.Publishable (db : Db H) (inode version handle generation : Nat) (staging : Staging)
    (previous : Option Nat) (pieces : List (Nat × Option Nat × Bytes)) : Prop
    extends db.Storable inode version staging.logicalSize previous where
  found : db.staging.get handle = some staging
  fresh : staging.generation = generation
  pieces : db.stagedPieces inode handle staging = .ok pieces

/-- Commits and inode updates leave the staged content as it is. -/
theorem stagedPieces_congr {left right : Db H} (inode handle : Nat) (staging : Staging)
    (chunksSame : right.stagingChunks = left.stagingChunks)
    (entriesSame : right.manifestChunks = left.manifestChunks)
    (storedSame : right.chunks = left.chunks) :
    right.stagedPieces inode handle staging = left.stagedPieces inode handle staging := by
  have piecesSame : right.stagedPiece inode handle staging =
      left.stagedPiece inode handle staging := by
    unfold stagedPiece
    rw [chunksSame, entriesSame, storedSame]
  unfold stagedPieces dirtyBytes
  rw [chunksSame, piecesSame]

theorem storeVersionFromStaging_ok {handle generation : Nat} :
    storeVersionFromStaging env inode version handle generation db = .ok (number, after) ↔
      number = version + 1 ∧ db.versions.get (inode, version + 1) = none ∧
        ∃ staging previous pieces,
          db.Publishable inode version handle generation staging previous pieces ∧
          after = (db.storedVersion env inode version staging.logicalSize previous
              pieces).rebaseStaging handle
            ((db.advanced env inode staging.logicalSize version).committed env).nextManifest := by
  have piecesKept : ∀ staging : Staging,
      ((db.advanced env inode staging.logicalSize version).committed env).stagedPieces inode handle
        staging = db.stagedPieces inode handle staging :=
    fun staging => stagedPieces_congr inode handle staging rfl rfl rfl
  unfold storeVersionFromStaging storeManifestFromStaging findStaging
  simp only [bind_ok, require_ok, rejectIf_ok, previousManifest_ok,
    checkQuotaForContentSize_ok, advanceVersion_ok, createCommit_ok, Prod.exists, checked_ok,
    storePieces_ok, reading_ok, insertVersion_ok, write_ok, pure_ok, not_not,
    piecesKept, and_assoc, exists_and_left, exists_eq_left, exists_const]
  constructor
  · rintro ⟨staging, found, fresh, previous, earlier, admitted, current, _, _, _,
      ⟨pieces, staged, rfl, rfl, rfl⟩, free, rfl, rfl⟩
    rw [insertManifest_versions] at free
    exact ⟨rfl, free, staging, previous, pieces,
      ⟨⟨earlier, admitted, current⟩, found, fresh, staged⟩, rfl⟩
  · rintro ⟨rfl, _, staging, previous, pieces,
      ⟨⟨earlier, admitted, current⟩, found, fresh, staged⟩, rfl⟩
    exact ⟨staging, found, fresh, previous, earlier, admitted, current, _, _, _,
      ⟨pieces, staged, rfl, rfl, rfl⟩, by rwa [insertManifest_versions], rfl, rfl⟩

end

end VexDB.VexFs
