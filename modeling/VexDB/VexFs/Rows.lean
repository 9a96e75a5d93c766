import VexDB.VexFs.Operations

/-!
# What the statements do to single rows

For every form of statement, the row that it leaves under each key.
-/

namespace VexDB.VexFs

open Storage Option

variable {H : Type} {db : Db H} {inode : Nat} {row : Inode}

namespace Db

/-! ## Inodes -/

@[simp] theorem get_insertInode (db : Db H) (inode other : Nat) (row : Inode) :
    (db.insertInode inode row).inodes.get other =
      if other = inode then some row else db.inodes.get other :=
  Table.get_set _ _ _ _

theorem ne_nextInode (stored : db.inodes.get inode = some row) : inode ≠ db.nextInode :=
  Table.ne_fresh _ _ stored

@[simp] theorem get_updateInodes (db : Db H) (change : Nat → Inode → Option Inode) (inode : Nat) :
    (db.updateInodes change).inodes.get inode =
      (db.inodes.get inode).map fun row => (change inode row).getD row :=
  Table.get_update _ _ _

theorem get_updateInodeIf (db : Db H) (inode other : Nat) (condition : Inode -> Bool)
    (change : Inode -> Inode) :
    (db.updateInodeIf inode condition change).inodes.get other =
      (db.inodes.get other).map fun row =>
        if other = inode ∧ condition row then change row else row := by
  unfold updateInodeIf
  rw [get_updateInodes]
  congr 1
  funext row
  split_ifs <;> rfl

theorem get_advanced (db : Db H) (env : Env) (inode size version other : Nat) :
    (db.advanced env inode size version).inodes.get other =
      (db.inodes.get other).map fun row =>
        if other = inode then
          { row with
            size := size
            currentVersion := version + 1
            updatedAt := env.now
            changedAt := env.now }
        else row := by
  unfold advanced updateInode
  rw [get_updateInodeIf]
  congr 1
  funext row
  simp only [and_true]

/-- An update leaves a row for every inode that had one, and for no other. -/
theorem get_updateInodes_some (found : (db.updateInodes change).inodes.get inode = some row) :
    ∃ old, db.inodes.get inode = some old ∧ (change inode old).getD old = row := by
  rw [get_updateInodes] at found
  exact map_eq_some_iff.1 found

/-! ## Live rows and stores -/

/-- A change of live names and attributes leaves versions, content and history as they are. -/
structure SameStores (db after : Db H) : Prop where
  versions : after.versions = db.versions
  manifests : after.manifests = db.manifests
  manifestChunks : after.manifestChunks = db.manifestChunks
  chunks : after.chunks = db.chunks
  commits : after.commits = db.commits
  inodeStates : after.inodeStates = db.inodeStates
  dentryStates : after.dentryStates = db.dentryStates
  xattrStates : after.xattrStates = db.xattrStates
  aclStates : after.aclStates = db.aclStates
  snapshots : after.snapshots = db.snapshots
  handles : after.handles = db.handles
  elsewhere : after.elsewhere = db.elsewhere
  root : after.workspace.rootInode = db.workspace.rootInode
  head : after.workspace.headCommit = db.workspace.headCommit
  floor : after.workspace.historyFloor = db.workspace.historyFloor

theorem SameStores.trans (first : db.SameStores between)
    (second : between.SameStores after) : db.SameStores after where
  versions := second.versions.trans first.versions
  manifests := second.manifests.trans first.manifests
  manifestChunks := second.manifestChunks.trans first.manifestChunks
  chunks := second.chunks.trans first.chunks
  commits := second.commits.trans first.commits
  inodeStates := second.inodeStates.trans first.inodeStates
  dentryStates := second.dentryStates.trans first.dentryStates
  xattrStates := second.xattrStates.trans first.xattrStates
  aclStates := second.aclStates.trans first.aclStates
  snapshots := second.snapshots.trans first.snapshots
  handles := second.handles.trans first.handles
  elsewhere := second.elsewhere.trans first.elsewhere
  root := second.root.trans first.root
  head := second.head.trans first.head
  floor := second.floor.trans first.floor

theorem SameStores.nextCommit (same : db.SameStores after) : after.nextCommit = db.nextCommit := by
  unfold Db.nextCommit
  rw [same.commits, same.elsewhere]

theorem sameStores_updateInodes (db : Db H) (change : Nat -> Inode -> Option Inode) :
    db.SameStores (db.updateInodes change) := by
  constructor <;> rfl

theorem sameStores_insertInode (db : Db H) (inode : Nat) (row : Inode) :
    db.SameStores (db.insertInode inode row) := by
  constructor <;> rfl

theorem sameStores_addedDentry (db : Db H) (env : Env) (parent : Nat) (name : Name) (inode : Nat) :
    db.SameStores (db.addedDentry env parent name inode) := by
  obtain ⟨_, _, same⟩ := (db.insertDentry (parent, name) inode).inheritAcl_frame parent inode
  unfold addedDentry
  rw [same]
  constructor <;> rfl

theorem get_addedDentry_inodes (db : Db H) (env : Env) (parent : Nat) (name : Name)
    (inode other : Nat) :
    (db.addedDentry env parent name inode).inodes.get other =
      (db.inodes.get other).map fun row =>
        if other = parent ∧ (row.kind = .directory && row.live) = true then
          { row with
            currentVersion := row.currentVersion + 1
            updatedAt := env.now
            changedAt := env.now }
        else row := by
  obtain ⟨_, _, same⟩ := (db.insertDentry (parent, name) inode).inheritAcl_frame parent inode
  unfold addedDentry touchDirectory
  rw [get_updateInodeIf, same]
  rfl

/-! ## Commits -/

/-- The row that a commit records for an inode. -/
def recordsInode (db : Db H) (inode : Nat) : Option Inode :=
  if inode ∈ db.dirtyInodes then (db.inodes.get inode).filter fun row => !row.unpublished else none

theorem get_committed_inodeStates (db : Db H) (env : Env) (inode point : Nat) :
    (db.committed env).inodeStates.get (inode, point) =
      if point = db.nextCommit then (db.recordsInode inode).or (db.inodeStates.get (inode, point))
      else db.inodeStates.get (inode, point) := by
  apply Table.get_setAll_point
  intro inode point row
  simp only [flushedInodes, recordsInode, List.mem_filterMap]
  constructor
  · rintro ⟨other, dirty, chosen⟩
    cases stored : db.inodes.get other with
    | none => simp [insertCommit, stored] at chosen
    | some =>
      simp only [insertCommit, stored] at chosen
      split_ifs at chosen with pending
      obtain ⟨same, rfl⟩ := Prod.mk.inj (some.inj chosen)
      obtain ⟨rfl, rfl⟩ := Prod.mk.inj same
      have isDirty : other ∈ db.dirtyInodes := dirty
      simp [isDirty, stored, pending]
  · rintro ⟨rfl, recorded⟩
    split_ifs at recorded with dirty
    obtain ⟨stored, published⟩ := filter_eq_some_iff.1 recorded
    have settled : row.unpublished = false := by simpa using published
    exact ⟨inode, dirty, by simp [insertCommit, stored, settled]⟩

/-- A commit records rows that are stored now. -/
theorem committed_inodeStates_some
    (found : (db.committed env).inodeStates.get (inode, point) = some row) :
    db.inodeStates.get (inode, point) = some row ∨
      point = db.nextCommit ∧ db.inodes.get inode = some row := by
  rw [get_committed_inodeStates] at found
  split_ifs at found with here
  · rcases or_eq_some_iff.1 found with recorded | ⟨_, old⟩
    · unfold recordsInode at recorded
      split_ifs at recorded
      exact .inr ⟨here, (filter_eq_some_iff.1 recorded).1⟩
    · exact .inl old
  · exact .inl found

end Db

end VexDB.VexFs
