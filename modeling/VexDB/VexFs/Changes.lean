import VexDB.VexFs.Effects

/-!
# The changes that operations are made of

Every operation but the collection of old versions is a sequence of the changes
listed here.  Storing a version, making a symbolic link and restoring a snapshot are
single changes, because they leave the tables consistent only when they are complete.
-/

namespace VexDB.VexFs

open Storage List Tx
open Program (exec savepoint)

variable {H : Type} {handle : Nat} {staging : Staging}

/-- Two rows of an inode differ in attributes that neither the usage counters nor
the stored versions depend on. -/
structure Inode.SameCore (row other : Inode) : Prop where
  kind : other.kind = row.kind
  size : other.size = row.size
  deletedAt : other.deletedAt = row.deletedAt
  version : row.kind ≠ .directory -> other.currentVersion = row.currentVersion
  positive : row.currentVersion <= other.currentVersion

/-- The rows of files and symbolic links with content agree in size with their
current versions, as far as these are stored. -/
def Db.SizesAgree (db : Db H) : Prop :=
  ∀ inode row version, db.inodes.get inode = some row -> row.published = true ->
    db.versions.get (inode, row.currentVersion) = some version -> version.size = row.size

variable [DecidableEq H] [Digest H] {piece : Nat × Option Nat × Bytes} {inode : Nat} {env : Env}

/-- The pieces of a content of some size, each with the right number of bytes and
with a stored chunk to reuse only if it holds the same bytes. -/
structure Db.PiecesOf (db : Db H) (inode size : Nat)
    (pieces : List (Nat × Option Nat × Bytes)) : Prop where
  numbers : pieces.map Prod.fst = List.range (chunkCount size)
  lengths : ∀ piece ∈ pieces,
    piece.2.2.length = min contentChunkBytes (size - piece.1 * contentChunkBytes)
  reused : ∀ piece ∈ pieces, ∀ id, piece.2.1 = some id ->
    db.chunks.get id = some ⟨inode, piece.2.2, piece.2.2.length, Digest.sha256 piece.2.2⟩

/-- What `vexfs_snapshot_restore` checks. -/
structure Db.Restorable (db : Db H) (target : Nat) (current recorded : SnapshotTree) :
    Prop where
  snapshot : ∃ name snapshot, db.snapshots.get name = some snapshot ∧ snapshot.commit = target
  valid : db.validateHistoryCommit target = .ok ()
  closed : ∀ id handle, db.handles.get id = some handle -> handle.state = .closed
  currentTree : db.currentTree = .ok current
  recordedTree : db.treeAtCommit target = .ok recorded
  differs : ¬ sameTree current recorded
  admitted : checkQuotaForSnapshotRestore db.workspace (snapshotQuotaStats current)
    (snapshotQuotaStats recorded) = .ok ()

/-- The state of a restore before its aliases are stored. -/
def Db.restoredTree (db : Db H) (env : Env) (target : Nat) : Db H :=
  ((db.restoreWorkspaceTree env target).prepareRestoredVersionAliases target).committed env

/-- Insert version rows, giving each the next id. -/
def Db.withVersions (db : Db H) (rows : List ((Nat × Nat) × Version H)) : Db H :=
  rows.foldl (fun db row => db.withVersion row.1.1 row.1.2 { row.2 with id := db.nextVersionId }) db

/-- The aliases that a restore stores. -/
def Db.aliasesOfRestore (db : Db H) (env : Env) (target : Nat) : List ((Nat × Nat) × Version H) :=
  (db.restoredTree env target).restoredAliases env target
    ((db.restoreWorkspaceTree env target).prepareRestoredVersionAliases target).nextCommit

/-- The state after a restore. -/
def Db.restored (db : Db H) (env : Env) (target : Nat) : Db H :=
  (db.restoredTree env target).withVersions (db.aliasesOfRestore env target)

/-- The state in which a new symbolic link has its name but no content. -/
def Db.withLink (db : Db H) (env : Env) (parent : Nat) (name : Name) : Db H :=
  (db.insertInode db.nextInode (newInode env .symlink 0o777)).addedDentry env parent name
    db.nextInode

/-- One change of the tables. -/
inductive Change : Db H -> Db H -> Prop
  | newInode {db} (env : Env) (kind : Kind) (mode : Nat) (notLink : kind ≠ .symlink)
      (admitted : db.admitsInode kind) :
      Change db (db.insertInode db.nextInode (newInode env kind mode))
  | symlink {db} (env : Env) (parent : Nat) (name : Name) (target : Bytes)
      (admitted : db.admitsInode .symlink) (free : db.dentries.get (parent, name) = none)
      (storable : (db.withLink env parent name).Storable db.nextInode 0 target.length none)
      (unused : db.versions.get (db.nextInode, 1) = none)
      (bounded : target.length <= maxStagedBytes) :
      Change db ((db.withLink env parent name).storedVersion env db.nextInode 0 target.length none
        (contentPieces target))
  | attributes {db} (change : Nat -> Inode -> Option Inode)
      (core : ∀ inode row other, change inode row = some other -> row.SameCore other) :
      Change db (db.updateInodes change)
  | tombstone {db} (change : Nat -> Inode -> Option Inode)
      (dead : ∀ inode row other, change inode row = some other ->
        ∃ time, other = { row with deletedAt := some time }) :
      Change db (db.updateInodes change)
  | insertDentry {db} (key : DentryKey) (inode : Nat) (free : db.dentries.get key = none) :
      Change db (db.insertDentry key inode)
  | deleteDentry {db} (key : DentryKey) : Change db (db.deleteDentry key)
  | moveDentry {db} (source target : DentryKey)
      (free : source = target ∨ db.dentries.get source = none ∨ db.dentries.get target = none) :
      Change db (db.moveDentry source target)
  | setXattr {db} (key : XattrKey) (value : Bytes)
      (known : ∃ row, db.inodes.get key.1 = some row) : Change db (db.setXattr key value)
  | deleteXattrs {db} (condition : XattrKey -> Bool) : Change db (db.deleteXattrs condition)
  | setAcl {db} (key : AclKey) (row : AclRow) : Change db (db.setAcl key row)
  | deleteAcl {db} (condition : AclKey -> Bool) : Change db (db.deleteAcl condition)
  | commit {db} (env : Env) : Change db (db.committed env)
  | version {db} (env : Env) (inode version size : Nat) (previous : Option Nat)
      (pieces : List (Nat × Option Nat × Bytes))
      (storable : db.Storable inode version size previous)
      (free : db.versions.get (inode, version + 1) = none)
      (whole : db.PiecesOf inode size pieces)
      (bounded : db.SizesAgree -> size <= maxStagedBytes) :
      Change db (db.storedVersion env inode version size previous pieces)
  | aliasVersion {db} (env : Env) (inode version number : Nat) (source : VersionStorage H)
      (resolved : db.resolveVersionStorage inode number = .ok source)
      (admitted : db.admitsSize inode source.size)
      (current : ∃ row, db.inodes.get inode = some row ∧ row.currentVersion = version)
      (free : db.versions.get (inode, version + 1) = none) :
      Change db (db.storedAlias env inode version source)
  | settings {db} (workspace : Workspace)
      (root : workspace.rootInode = db.workspace.rootInode)
      (head : workspace.headCommit = db.workspace.headCommit)
      (floor : workspace.historyFloor = db.workspace.historyFloor)
      (files : workspace.liveFiles = db.workspace.liveFiles)
      (bytes : workspace.liveBytes = db.workspace.liveBytes) :
      Change db { db with workspace := workspace }
  | snapshots {db} (table : Table String Snapshot)
      (known : ∀ name snapshot, table.get name = some snapshot ->
        db.snapshots.get name = some snapshot ∨
          db.validateHistoryCommit snapshot.commit = .ok () ∨
          snapshot.commit = db.workspace.headCommit) :
      Change db { db with snapshots := table }
  | restore {db} (env : Env) (target : Nat) (current recorded : SnapshotTree)
      (restorable : db.Restorable target current recorded)
      (free : ∀ row ∈ db.aliasesOfRestore env target,
        (db.restoredTree env target).versions.get row.1 = none) :
      Change db (db.restored env target)

/-- A number of changes. -/
abbrev Changes : Db H -> Db H -> Prop := Relation.ReflTransGen Change

/-! ## Changes beside the file system -/

/-- A change of handles, staged content, sessions and requests only. -/
def Db.besides (db after : Db H) : Prop :=
  after = { db with
    handles := after.handles, staging := after.staging, stagingChunks := after.stagingChunks
    mountSession := after.mountSession, requests := after.requests
    elsewhere := after.elsewhere }

/-- Dirty chunks belong to staging areas. -/
def Db.ChunksStaged (db : Db H) : Prop :=
  ∀ id no content, db.stagingChunks.get (id, no) = some content ->
    ∃ staging, db.staging.get id = some staging

/-- A change of the file system or beside it. -/
inductive Transition : Db H -> Db H -> Prop
  | change {db after} (change : Change db after) : Transition db after
  | beside {db after} (same : db.besides after) (staged : db.ChunksStaged -> after.ChunksStaged) :
      Transition db after

/-- A number of transitions. -/
abbrev Transitions : Db H -> Db H -> Prop := Relation.ReflTransGen Transition

/-- A transition, or the collection of old versions. -/
inductive Evolves : Db H -> Db H -> Prop
  | transition {db after} (step : Transition db after) : Evolves db after
  | collect {db} (env : Env) (batch : Nat) (running : db.workspace.gcPaused = false) :
      Evolves db (db.deleteVersions (db.deletedVersions env batch))

/-- A write that leaves staging areas and their dirty chunks alone. -/
theorem traces_besides (kept : ∀ db : Db H, db.besides (change db) ∧
      (change db).staging = db.staging ∧ (change db).stagingChunks = db.stagingChunks) :
    Traces Transition (Tx.write change : Sql H Unit) := by
  refine .write fun db => .beside (kept db).1 fun staged => ?_
  unfold Db.ChunksStaged at staged ⊢
  rw [(kept db).2.1, (kept db).2.2]
  exact staged

section

omit [DecidableEq H] [Digest H]

/-- Dropping the staged content of handles, chunks first or at once. -/
theorem Db.ChunksStaged.drop {db after : Db H} (staged : db.ChunksStaged)
    (chunks : ∀ id no content, after.stagingChunks.get (id, no) = some content ->
      db.stagingChunks.get (id, no) = some content ∧
        ∀ row, db.staging.get id = some row -> ∃ now, after.staging.get id = some now) :
    after.ChunksStaged := by
  intro id no content found
  obtain ⟨stored, kept⟩ := chunks id no content found
  obtain ⟨row, present⟩ := staged id no content stored
  exact kept row present

end

theorem traces_commit (env : Env) : Traces Change (createCommit env : Sql H Nat) := by
  intro _ _ _ returned
  rw [(createCommit_ok.1 returned).2]
  exact .single (.commit env)

theorem traces_commitMetadata (env : Env) (inode : Nat) :
    Traces Change (commitMetadataChange env inode : Sql H Unit) := by
  intro _ _ _ returned
  rw [commitMetadataChange_ok.1 returned]
  split_ifs
  · exact .refl
  · exact .single (.commit env)

/-! ## Changes of single rows -/

omit [DecidableEq H] [Digest H] in
/-- The rows that an update of one inode changes. -/
theorem updateInodeIf_some {condition : Inode -> Bool} {change : Inode -> Inode}
    (changed : (if other = inode ∧ condition row then some (change row) else none) = some result) :
    other = inode ∧ condition row = true ∧ result = change row := by
  split_ifs at changed with holds
  exact ⟨holds.1, holds.2, (Option.some.inj changed).symm⟩

/-- Updating attributes of one inode is a change. -/
theorem Change.updateInodeIf {db : Db H} (inode : Nat) (condition : Inode -> Bool)
    (change : Inode -> Inode) (core : ∀ row, condition row = true -> row.SameCore (change row)) :
    Change db (db.updateInodeIf inode condition change) := by
  apply Change.attributes
  intro _ row _ changed
  obtain ⟨_, holds, rfl⟩ := updateInodeIf_some changed
  exact core row holds

theorem Change.touchDirectory {db : Db H} (env : Env) (inode : Nat) :
    Change db (db.touchDirectory env inode) := by
  apply Change.updateInodeIf
  intro _ directory
  simp only [Bool.and_eq_true, decide_eq_true_eq] at directory
  exact ⟨rfl, rfl, rfl, fun other => absurd directory.1 other, Nat.le_succ _⟩

theorem Change.touchInode {db : Db H} (env : Env) (inode : Nat) :
    Change db (db.touchInode env inode) :=
  Change.updateInodeIf inode _ _ fun _ _ => ⟨rfl, rfl, rfl, fun _ => rfl, Nat.le_refl _⟩

theorem changes_inheritAcl (db : Db H) (parent inode : Nat) :
    Changes db (db.inheritAcl parent inode) := by
  apply foldlRecOn (motive := fun after => Changes db after)
  · exact .refl
  · intro _ reached _ _
    unfold Db.insertAclOrIgnore
    split_ifs
    · exact reached
    · exact reached.tail (.setAcl _ _)

theorem changes_addedDentry {db : Db H} (env : Env) (parent : Nat) (name : Name) (inode : Nat)
    (free : db.dentries.get (parent, name) = none) :
    Changes db (db.addedDentry env parent name inode) :=
  ((Relation.ReflTransGen.single (.insertDentry _ inode free)).trans
    (changes_inheritAcl _ parent inode)).tail (.touchDirectory env parent)

theorem traces_createInode (notLink : kind ≠ .symlink) :
    Traces Change (createInode env kind mode : Sql H Nat) := by
  intro _ _ _ returned
  obtain ⟨admitted, rfl, rfl⟩ := createInode_ok.1 returned
  exact .single (.newInode env kind mode notLink admitted)

theorem traces_insertDentry : Traces Change (insertDentry key inode : Sql H Unit) := by
  intro _ _ _ returned
  obtain ⟨free, rfl⟩ := insertDentry_ok.1 returned
  exact .single (.insertDentry key inode free)

theorem traces_addDentry {parent : Nat} {name : Name} :
    Traces Change (addDentry env parent name inode : Sql H Unit) := by
  intro _ _ _ returned
  obtain ⟨free, rfl⟩ := addDentry_ok.1 returned
  exact changes_addedDentry env parent name inode free

/-! ## Versions -/

theorem length_chunkOf (content : Bytes) (no : Nat) :
    (chunkOf content no).length =
      min contentChunkBytes (content.length - no * contentChunkBytes) := by
  unfold chunkOf
  rw [length_take, length_drop]

omit [DecidableEq H] in
theorem piecesOf_contentPieces (db : Db H) (inode : Nat) (content : Bytes) :
    db.PiecesOf inode content.length (contentPieces content) := by
  constructor
  · unfold contentPieces
    rw [map_map]
    exact map_id _
  · intro piece member
    obtain ⟨no, _, rfl⟩ := mem_map.1 member
    exact length_chunkOf content no
  · intro _ member _ reuse
    obtain ⟨no, _, rfl⟩ := mem_map.1 member
    cases reuse

theorem changes_storeVersion {version number : Nat} {content : Bytes}
    {db after : Db H} (bounded : db.SizesAgree -> content.length <= maxStagedBytes)
    (returned : storeVersion env inode version content db = .ok (number, after)) :
    Changes db after := by
  obtain ⟨_, free, previous, storable, rfl⟩ := storeVersion_ok.1 returned
  exact .single (.version env inode version _ previous _ storable free
    (piecesOf_contentPieces db inode content) bounded)

theorem traces_storeVersion (env : Env) (inode version : Nat) (content : Bytes)
    (bounded : content.length <= maxStagedBytes) :
    Traces Change (storeVersion env inode version content : Sql H Nat) :=
  fun _ _ _ returned => changes_storeVersion (fun _ => bounded) returned

theorem length_padChunk (bytes : Bytes) : contentChunkBytes <= (padChunk bytes).length := by
  unfold padChunk
  rw [length_append, length_replicate]
  omega

/-- The first bytes of a padded chunk. -/
theorem length_take_padChunk {bytes : Bytes} {count : Nat} (within : count <= contentChunkBytes) :
    ((padChunk bytes).take count).length = count := by
  rw [length_take]
  exact Nat.min_eq_left (within.trans (length_padChunk bytes))

theorem take_padChunk (bytes : Bytes) : (padChunk bytes).take bytes.length = bytes :=
  take_left

/-- The number of bytes of a chunk of a content of some size. -/
def bytesAt (size no : Nat) : Nat := min contentChunkBytes (size - no * contentChunkBytes)

/-- The number of bytes of a base chunk that show. -/
def visibleAt (staging : Staging) (no : Nat) : Nat :=
  min (bytesAt staging.baseSize no) (staging.baseVisibleSize - no * contentChunkBytes)

/-- A stored chunk is the base chunk of staged content. -/
structure Db.BaseChunk (db : Db H) (inode : Nat) (staging : Staging) (no id : Nat)
    (chunk : Chunk H) : Prop where
  listed : ∃ manifest, staging.baseManifest = some manifest ∧ manifest ≠ 0 ∧
    db.manifestChunks.get (manifest, no) = some id
  stored : db.chunks.get id = some chunk
  positive : 0 < bytesAt staging.baseSize no
  size : chunk.size = bytesAt staging.baseSize no
  length : chunk.content.length = bytesAt staging.baseSize no
  inode : chunk.inode = inode
  checksum : Digest.sha256 chunk.content = chunk.checksum

section

variable {db : Db H} (staged : db.stagedPiece inode handle staging no = .ok piece)
include staged

/-- The three kinds of piece: written since, past the visible part of the base,
or from the base, whose chunk is reused if all of it shows. -/
theorem stagedPiece_cases :
    (∃ content, db.stagingChunks.get (handle, no) = some content ∧ content ≠ [] ∧
      content.length <= contentChunkBytes ∧
      piece = (no, none, (padChunk content).take (bytesAt staging.logicalSize no))) ∨
    (db.stagingChunks.get (handle, no) = none ∧ staging.baseVisibleSize <= no * contentChunkBytes ∧
      piece = (no, none, (padChunk []).take (bytesAt staging.logicalSize no))) ∨
    (db.stagingChunks.get (handle, no) = none ∧ no * contentChunkBytes < staging.baseVisibleSize ∧
      ∃ id chunk, db.BaseChunk inode staging no id chunk ∧ piece = (no,
          if visibleAt staging no = bytesAt staging.baseSize no ∧
            bytesAt staging.baseSize no = bytesAt staging.logicalSize no then some id else none,
          (padChunk (chunk.content.take (visibleAt staging no))).take
            (bytesAt staging.logicalSize no))) := by
  unfold Db.stagedPiece at staged
  dsimp only at staged
  split at staged
  case h_1 content dirty =>
    left
    split at staged
    · cases staged
    · rename_i fits
      push Not at fits
      exact ⟨content, dirty, fits.1, fits.2, (Except.ok.inj staged).symm⟩
  case h_2 clean =>
    right
    split at staged
    · rename_i beyond
      exact .inl ⟨clean, beyond, (Except.ok.inj staged).symm⟩
    · rename_i shows
      right
      split at staged
      · cases staged
      · rename_i id listed
        obtain ⟨manifest, base, listed⟩ := Option.bind_eq_some_iff.1 listed
        split at staged
        · cases staged
        · rename_i chunk stored
          split at staged
          · cases staged
          · rename_i intact
            push Not at intact
            obtain ⟨nonzero, positive, size, length, owner⟩ := intact
            have known : Digest.sha256 chunk.content = chunk.checksum ->
                db.BaseChunk inode staging no id chunk := fun checksum =>
              ⟨⟨manifest, base, by rintro rfl; exact nonzero base, listed⟩, stored,
                Nat.pos_of_ne_zero positive, size, length, owner, checksum⟩
            refine ⟨clean, Nat.lt_of_not_le shows, id, chunk, ?_⟩
            split at staged
            · rename_i whole
              change visibleAt staging no = bytesAt staging.baseSize no ∧
                bytesAt staging.baseSize no = bytesAt staging.logicalSize no at whole
              split at staged
              · rename_i same
                -- The whole base chunk shows, so the bytes are its content.
                have content : (padChunk (chunk.content.take (visibleAt staging no))).take
                    (bytesAt staging.logicalSize no) = chunk.content := by
                  have all : visibleAt staging no = chunk.content.length :=
                    whole.1.trans length.symm
                  have count : bytesAt staging.logicalSize no = chunk.content.length :=
                    whole.2.symm.trans length.symm
                  rw [all, take_length, count, take_padChunk]
                refine ⟨known (content ▸ same), ?_⟩
                rw [if_pos whole]
                exact (Except.ok.inj staged).symm
              · cases staged
            · rename_i part
              change ¬(visibleAt staging no = bytesAt staging.baseSize no ∧
                bytesAt staging.baseSize no = bytesAt staging.logicalSize no) at part
              split at staged
              · rename_i same
                refine ⟨known same, ?_⟩
                rw [if_neg part]
                exact (Except.ok.inj staged).symm
              · cases staged

/-- A piece of staged content has its number, its length, and a stored chunk to
reuse only if the chunk holds the same bytes. -/
theorem stagedPiece_ok : piece.1 = no ∧ piece.2.2.length = bytesAt staging.logicalSize no ∧
    ∀ id, piece.2.1 = some id ->
      db.chunks.get id = some ⟨inode, piece.2.2, piece.2.2.length, Digest.sha256 piece.2.2⟩ := by
  have within : bytesAt staging.logicalSize no <= contentChunkBytes := Nat.min_le_left _ _
  rcases stagedPiece_cases staged with ⟨content, _, _, _, rfl⟩ | ⟨_, _, rfl⟩ |
    ⟨_, _, id, chunk, base, rfl⟩
  · exact ⟨rfl, length_take_padChunk within, nofun⟩
  · exact ⟨rfl, length_take_padChunk within, nofun⟩
  · refine ⟨rfl, length_take_padChunk within, fun other reuse => ?_⟩
    split_ifs at reuse with whole
    cases reuse
    have content : (padChunk (chunk.content.take (visibleAt staging no))).take
        (bytesAt staging.logicalSize no) = chunk.content := by
      rw [whole.1, <- base.length, take_length, <- whole.2, <- base.length, take_padChunk]
    rw [content, base.stored, Option.some.injEq, <- base.inode, base.checksum, base.length,
      <- base.size]

end

theorem piecesOf_stagedPieces {db : Db H} {pieces : List (Nat × Option Nat × Bytes)}
    (staged : db.stagedPieces inode handle staging = .ok pieces) :
    db.PiecesOf inode staging.logicalSize pieces ∧ staging.logicalSize <= maxStagedBytes := by
  unfold Db.stagedPieces at staged
  dsimp only at staged
  split_ifs at staged with sizes set
  push Not at sizes
  refine ⟨?_, sizes.1⟩
  have each := mapM_except_ok staged
  constructor
  · have numbers := each.imp fun _ _ returned => (stagedPiece_ok returned).1.symm
    rw [<- forall₂_map_right_iff, forall₂_eq_eq_eq] at numbers
    exact numbers.symm
  · intro piece member
    obtain ⟨no, _, returned⟩ := exists_of_mapM_ok staged member
    obtain ⟨rfl, length, _⟩ := stagedPiece_ok returned
    exact length
  · intro _ member
    obtain ⟨no, _, returned⟩ := exists_of_mapM_ok staged member
    exact (stagedPiece_ok returned).2.2

end VexDB.VexFs
