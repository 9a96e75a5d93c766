import VexDB.PgFs.Histories

/-!
# What a snapshot and a restore do

A snapshot captures the tree at the head and names that commit.  A restore takes a
safety snapshot if it is given a name for one, records a commit, replaces the live
rows by those of a snapshot and captures them at the new head.
-/

namespace VexDB.PgFs

open Storage Option Table Tx
open VexFs (Bytes Name Kind DentryKey XattrKey Digest SnapshotType slash)

variable {H : Type} {env : Env} {db after : Db H} {name : String} {commit : Nat}
  {target : TargetTree}

/-! ## Snapshots -/

/-- The state after a snapshot of the head. -/
def Db.snapshotted (db : Db H) (env : Env) (name : String) (type : SnapshotType) : Db H :=
  let captured := db.captureMetadataCheckpoint db.workspace.headCommit
  { captured with
    sequences.snapshot := db.sequences.snapshot + 1
    history.snapshots := db.history.snapshots.set name
      ⟨db.sequences.snapshot + 1, type, db.workspace.headCommit, env.now⟩ }

theorem snapshotCreate_ok {type : SnapshotType}
    (returned : snapshotCreate env name expectedHead consistent type db = .ok (commit, after)) :
    db.history.snapshots.get name = none ∧ after = db.snapshotted env name type := by
  unfold snapshotCreate insertSnapshot nextval at returned
  simp only [bind_ok, rejectIf_ok, requireWorkspace_ok, write_ok, attempt_ok] at returned
  obtain ⟨_, _, ⟨_, rfl⟩, _, _, ⟨_, rfl⟩, _, _, ⟨rfl, rfl⟩, _, _, ⟨_, rfl⟩, _, _, ⟨rfl, rfl⟩, _, _,
    ⟨_, rfl⟩, _, _, rfl, _, _, ⟨_, _, ⟨_, _, ⟨rfl, rfl⟩, _, _, rfl, rfl, rfl⟩, inserted⟩, rfl,
    rfl⟩ := returned
  split_ifs at inserted with taken
  cases inserted
  exact ⟨not_isSome_iff_eq_none.1 taken, rfl⟩

/-- Snapshots are dropped, and nothing else changes. -/
def Drops (db after : Db H) : Prop :=
  ∃ snapshots : Table String Snapshot,
    (∀ name row, snapshots.get name = some row -> db.history.snapshots.get name = some row) ∧
      after = { db with history.snapshots := snapshots }

theorem snapshotDrop_drops (returned : snapshotDrop env name db = .ok ((), after)) :
    Drops db after := by
  unfold snapshotDrop onSnapshots at returned
  simp only [bind_ok, requireWorkspace_ok, require_ok, write_ok] at returned
  obtain ⟨_, _, ⟨_, rfl⟩, _, _, ⟨_, rfl⟩, rfl⟩ := returned
  refine ⟨_, fun other row stored => ?_, rfl⟩
  rw [get_erase] at stored
  split_ifs at stored
  exact stored

theorem snapshotPrune_drops
    (returned : snapshotPrune env dryRun db = .ok (count, after)) : Drops db after := by
  unfold snapshotPrune onSnapshots at returned
  simp only [bind_ok, requireWorkspace_ok] at returned
  obtain ⟨_, _, ⟨_, rfl⟩, _, _, ⟨rfl, rfl⟩, returned⟩ := returned
  split_ifs at returned
  · obtain ⟨_, rfl⟩ := pure_ok.1 returned
    exact ⟨_, fun _ _ stored => stored, rfl⟩
  · obtain ⟨_, _, rfl, _, rfl⟩ := returned
    refine ⟨_, fun other row stored => ?_, rfl⟩
    rw [Table.get_filter] at stored
    exact (filter_eq_some_iff.1 stored).1

/-- The state after the safety snapshot of a restore. -/
def Db.safeguarded (db : Db H) (env : Env) : Option String -> Db H
  | none => db
  | some name => db.snapshotted env name .safety

theorem safetySnapshot_ok (returned : safetySnapshot env head safety db = .ok (nothing, after)) :
    (∀ name, safety = some name -> db.history.snapshots.get name = none) ∧
      after = db.safeguarded env safety := by
  cases safety with
  | none => exact ⟨nofun, (pure_ok.1 returned).2⟩
  | some =>
    obtain ⟨_, created⟩ := discard_ok.1 returned
    obtain ⟨free, rfl⟩ := snapshotCreate_ok created
    exact ⟨fun _ given => some.inj given ▸ free, rfl⟩

/-! ## Restores -/

/-- The entries and inodes that a restore leaves, before it adds versions. -/
def Tree.restored (tree : Tree) (target : TargetTree) : Tree :=
  (((tree.deleteDentries fun _ => true).insertDentries target.dentries).updateInodes fun _ row =>
    if row.live then some { row with live := false } else none).updateInodes fun inode row =>
      (target.inodes.get inode).map row.revive

variable [DecidableEq H]

namespace Db

/-- The state after a restore has replaced the live rows. -/
def replaced (db : Db H) (env : Env) (commit : Nat) (target : TargetTree) : Db H :=
  let versioned := { db with tree := db.tree.restored target }.addRestored env commit target
  { versioned with
    tree := (versioned.tree.deleteXattrs fun _ => true).insertXattrs target.xattrs }

/-- The state after a restore of some rows. -/
def restored (db : Db H) (env : Env) (target : TargetTree) : Db H :=
  (db.advanceHead.replaced env (db.workspace.headCommit + 1) target).captureMetadataCheckpoint
    (db.workspace.headCommit + 1)

end Db

theorem replaceTree_ok :
    replaceTree env commit target db = .ok (nothing, after) ↔
      after = db.replaced env commit target := by
  unfold replaceTree
  simp only [bind_ok, onTree_ok, write_ok]
  constructor
  · rintro ⟨_, _, rfl, _, _, rfl, _, _, rfl, _, _, rfl, _, _, rfl, _, _, rfl, rfl⟩
    rfl
  · rintro rfl
    exact ⟨⟨⟩, _, rfl, ⟨⟩, _, rfl, ⟨⟩, _, rfl, ⟨⟩, _, rfl, ⟨⟩, _, rfl, ⟨⟩, _, rfl, rfl⟩

/-- What a restore checks and does. -/
structure Restores (env : Env) (name : String) (safety : Option String) (db after : Db H)
    (target : TargetTree) : Prop where
  found : ∃ row, db.history.snapshots.get name = some row ∧
    row.commit ≠ db.workspace.headCommit ∧ target = db.history.target row.commit
  backed : db.missesVersion target = false
  differs : db.sameState target = false
  unmounted : ∀ id handle, db.mounts.handles.get id = some handle -> handle.state = .closed
  free : ∀ name, safety = some name -> db.history.snapshots.get name = none
  result : after = (db.safeguarded env safety).restored env target

section

omit [DecidableEq H]

theorem Db.safeguarded_batch (safety : Option String) :
    (db.safeguarded env safety).batch = db.batch := by
  cases safety with
  | none => rfl
  | some => rfl

theorem requireUnmounted_ok (returned : requireUnmounted env caller db = .ok (nothing, after)) :
    after = db ∧
      ∀ id handle, db.mounts.handles.get id = some handle -> handle.state = .closed := by
  unfold requireUnmounted at returned
  simp only [bind_ok, rejectIf_ok, reading_ok] at returned
  obtain ⟨_, _, ⟨rfl, rfl⟩, _, _, ⟨_, rfl⟩, _, _, ⟨_, rfl⟩, closed, rfl⟩ := returned
  refine ⟨rfl, fun id handle stored => ?_⟩
  by_contra opened
  exact closed (List.any_eq_true.2 ⟨(id, handle), (mem_entries _ _ _).2 stored,
    by simpa using opened⟩)

end

theorem restoreTarget_ok (returned : restoreTarget name head db = .ok (target, after)) :
    after = db ∧ (∃ row, db.history.snapshots.get name = some row ∧ row.commit ≠ head ∧
      target = db.history.target row.commit) ∧
      db.missesVersion target = false ∧ db.sameState target = false := by
  unfold restoreTarget at returned
  simp only [bind_ok, rejectIf_ok, require_ok] at returned
  obtain ⟨row, _, ⟨found, rfl⟩, _, _, ⟨other, rfl⟩, _, _, ⟨rfl, rfl⟩, _, _, ⟨backed, rfl⟩, _, _,
    ⟨differs, rfl⟩, rfl, rfl⟩ := returned
  exact ⟨rfl, ⟨row, found, by simpa using other, rfl⟩, Bool.eq_false_of_not_eq_true backed,
    Bool.eq_false_of_not_eq_true differs⟩

omit [DecidableEq H] in
theorem enforceSnapshotQuota_ok (returned : enforceSnapshotQuota target db = .ok (nothing, after)) :
    after = db := by
  unfold enforceSnapshotQuota at returned
  simp only [bind_ok, rejectIf_ok, reading_ok] at returned
  obtain ⟨_, _, ⟨rfl, rfl⟩, _, _, ⟨_, rfl⟩, _, _, ⟨_, rfl⟩, _, rfl⟩ := returned
  rfl

theorem snapshotRestore_ok (unbatched : db.batch = none)
    (returned : snapshotRestore env name expectedHead safety caller db = .ok (commit, after)) :
    ∃ target, Restores env name safety db after target := by
  unfold snapshotRestore at returned
  simp only [bind_ok, rejectIf_ok, requireWorkspace_ok, write_ok, replaceTree_ok] at returned
  obtain ⟨_, _, ⟨_, rfl⟩, _, _, ⟨_, rfl⟩, _, _, ⟨rfl, rfl⟩, _, _, ⟨_, rfl⟩, returned⟩ := returned
  obtain ⟨_, _, unmounted, target, _, chosen, _, _, allowed, _, _, safe, _, _, committed,
    returned⟩ := returned
  obtain ⟨rfl, closed⟩ := requireUnmounted_ok unmounted
  obtain ⟨rfl, found, backed, differs⟩ := restoreTarget_ok chosen
  obtain rfl := enforceSnapshotQuota_ok allowed
  obtain ⟨free, rfl⟩ := safetySnapshot_ok safe
  obtain ⟨_, ⟨inBatch, _⟩ | ⟨_, rfl, rfl⟩⟩ := recordCommit_ok.1 committed
  · rw [Db.safeguarded_batch, unbatched] at inBatch
    cases inBatch
  · obtain ⟨_, _, rfl, _, _, rfl, rfl, rfl⟩ := returned
    exact ⟨target, found, backed, differs, closed, free, rfl⟩

/-! ## The rows a restore leaves -/

namespace Tree

variable {tree : Tree} {target : TargetTree}

theorem evolves_restored : tree.Evolves (tree.restored target) :=
  (evolves_deleteDentries _).trans <| (evolves_insertDentries _).trans <|
    (evolves_updateInodes _).trans (evolves_updateInodes _)

theorem get_restored_dentries (key : DentryKey) :
    (tree.restored target).dentries.get key = target.dentries.get key := by
  unfold restored
  rw [updateInodes_dentries, updateInodes_dentries]
  unfold insertDentries
  rw [get_setAll_entries, get_deleteDentries, if_pos rfl, or_none]

theorem get_restored_inodes (inode : Nat) :
    (tree.restored target).inodes.get inode = (tree.inodes.get inode).map fun row =>
      ((target.inodes.get inode).map row.revive).getD { row with live := false } := by
  unfold restored
  rw [get_updateInodes, get_updateInodes]
  have same : ((tree.deleteDentries fun _ => true).insertDentries target.dentries).inodes =
      tree.inodes := rfl
  rw [same, map_map]
  congr 1
  funext row
  have dead : (if row.live then some { row with live := false } else none).getD row =
      { row with live := false } := by
    cases row
    split_ifs with live
    · rfl
    · simp only [Bool.not_eq_true] at live
      subst live
      rfl
  rw [Function.comp_apply, dead]
  cases target.inodes.get inode with
  | none => rfl
  | some => rfl

end Tree

namespace Db

variable {commit : Nat} {target : TargetTree} {entry : (Nat × Nat) × Version H}


omit [DecidableEq H] in
/-- The number of a new version is above those there are. -/
theorem nextVersion_fresh (store : Store H) (inode : Nat) :
    store.versions.get (inode, store.nextVersion inode) = none := by
  rw [get_eq_none]
  intro listed
  have member : (inode, store.nextVersion inode) ∈
      store.versions.keys.filter fun key => key.1 = inode :=
    List.mem_filter.2 ⟨listed, decide_eq_true rfl⟩
  have bounded := le_foldr_max 0 (List.mem_map_of_mem (f := Prod.snd) member)
  unfold Store.nextVersion at bounded
  dsimp only at bounded
  omega

theorem restoredVersion_eq_some :
    db.restoredVersion env commit inode row = some entry ↔
      row.kind ≠ .directory ∧ ∃ live source current, db.tree.inodes.get inode = some live ∧
        db.store.versions.get (inode, row.currentVersion) = some source ∧
        db.store.versions.get (inode, live.currentVersion) = some current ∧
        ¬ (current.size = source.size ∧ current.checksum = source.checksum) ∧
        entry = ((inode, db.store.nextVersion inode), ⟨commit, none,
          some (source.source.getD row.currentVersion), source.size, source.checksum,
          env.now⟩) := by
  unfold restoredVersion
  split_ifs with directory
  · simp [directory]
  · simp only [bind_eq_bind, bind_eq_some_iff, directory, ne_eq, not_false_eq_true,
      true_and]
    constructor
    · rintro ⟨live, stored, source, sourceStored, current, currentStored, added⟩
      split_ifs at added with same
      exact ⟨live, source, current, stored, sourceStored, currentStored, same,
        (some.inj added).symm⟩
    · rintro ⟨live, source, current, stored, sourceStored, currentStored, differs, rfl⟩
      exact ⟨live, stored, source, sourceStored, current, currentStored, if_neg differs⟩

theorem mem_restoredVersions :
    (key, version) ∈ db.restoredVersions env commit target ↔
      ∃ row, target.inodes.get key.1 = some row ∧
        db.restoredVersion env commit key.1 row = some (key, version) := by
  unfold restoredVersions
  simp only [List.mem_filterMap, Prod.exists, mem_entries]
  constructor
  · rintro ⟨_, row, found, added⟩
    obtain ⟨_, _, _, _, _, _, _, _, same⟩ := restoredVersion_eq_some.1 added
    cases same
    exact ⟨row, found, added⟩
  · rintro ⟨row, found, added⟩
    exact ⟨key.1, row, found, added⟩

/-- The version that a restore adds for an inode, if it adds one. -/
def addedVersion (db : Db H) (env : Env) (commit : Nat) (target : TargetTree) (inode : Nat) :
    Option ((Nat × Nat) × Version H) :=
  (target.inodes.get inode).bind (db.restoredVersion env commit inode)

theorem addedVersion_key (added : db.addedVersion env commit target inode = some entry) :
    entry.1 = (inode, db.store.nextVersion inode) := by
  obtain ⟨_, _, found⟩ := bind_eq_some_iff.1 added
  obtain ⟨_, _, _, _, _, _, _, _, rfl⟩ := restoredVersion_eq_some.1 found
  rfl

theorem find_restoredVersions (inode : Nat) :
    ((db.restoredVersions env commit target).find? fun entry => entry.1.1 = inode) =
      db.addedVersion env commit target inode := by
  cases found : (db.restoredVersions env commit target).find? fun entry => entry.1.1 = inode with
  | some entry =>
    obtain ⟨row, stored, added⟩ := mem_restoredVersions.1 (List.mem_of_find?_eq_some found)
    have same : entry.1.1 = inode := by simpa using List.find?_some found
    rw [addedVersion, <- same, stored, bind_some, added]
  | none =>
    rw [List.find?_eq_none] at found
    rw [eq_comm, eq_none_iff_forall_ne_some]
    rintro ⟨key, version⟩ added
    obtain rfl : _ = _ := addedVersion_key added
    obtain ⟨row, stored, restored⟩ := bind_eq_some_iff.1 added
    exact found ((inode, db.store.nextVersion inode), version)
      (mem_restoredVersions.2 ⟨row, stored, restored⟩) (by simp)

/-- The versions after a restore. -/
theorem get_addRestored_versions (key : Nat × Nat) :
    (db.addRestored env commit target).store.versions.get key =
      (((db.addedVersion env commit target key.1).filter fun entry => entry.1 = key).map
        Prod.snd).or (db.store.versions.get key) := by
  unfold addRestored
  rw [get_setAll]
  congr 1
  cases added : (db.addedVersion env commit target key.1).filter fun entry => entry.1 = key with
  | none =>
    rw [map_none, lastRow_eq_none]
    intro version member
    obtain ⟨row, stored, restored⟩ := mem_restoredVersions.1 member
    have found : db.addedVersion env commit target key.1 = some (key, version) := by
      rw [addedVersion, stored, bind_some, restored]
    rw [found, filter_some, if_pos (by simp)] at added
    cases added
  | some entry =>
    obtain ⟨found, same⟩ := filter_eq_some_iff.1 added
    obtain ⟨other, _⟩ := entry
    obtain rfl : _ = _ := by simpa using same
    obtain ⟨row, stored, restored⟩ := bind_eq_some_iff.1 found
    refine lastRow_of_unique (mem_restoredVersions.2 ⟨row, stored, restored⟩) ?_
    intro _ member
    obtain ⟨_, storedAgain, restoredAgain⟩ := mem_restoredVersions.1 member
    cases stored.symm.trans storedAgain
    exact (Prod.mk.inj (mem_unique restoredAgain restored)).2

/-- A restore keeps the versions there are. -/
theorem get_addRestored_of_some (stored : db.store.versions.get key = some version) :
    (db.addRestored env commit target).store.versions.get key = some version := by
  rw [get_addRestored_versions, stored]
  cases added : (db.addedVersion env commit target key.1).filter fun entry => entry.1 = key with
  | none => rfl
  | some =>
    obtain ⟨found, same⟩ := filter_eq_some_iff.1 added
    have fresh := addedVersion_key found
    rw [decide_eq_true_iff.1 same] at fresh
    rw [fresh, nextVersion_fresh] at stored
    cases stored

/-- The versions a restore adds are copies of versions there are. -/
theorem versioned_addRestored (versioned : db.store.Versioned) :
    (db.addRestored env commit target).store.Versioned := by
  refine versioned.extend rfl (fun _ _ => get_addRestored_of_some) ?_
  intro inode _ _ stored
  rw [get_addRestored_versions] at stored
  rcases or_eq_some_iff.1 stored with added | ⟨_, before⟩
  · obtain ⟨_, found, rfl⟩ := map_eq_some_iff.1 added
    obtain ⟨row, _, restored⟩ := bind_eq_some_iff.1 (filter_eq_some_iff.1 found).1
    obtain ⟨_, _, source, _, _, sourceStored, _, _, rfl⟩ := restoredVersion_eq_some.1 restored
    right
    cases versioned inode row.currentVersion source sourceStored with
    | canonical _ _ _ first =>
      exact .copy row.currentVersion source rfl (by rw [first]; rfl) sourceStored first rfl rfl
    | copy origin earlier _ of earlierStored first size checksum =>
      exact .copy origin earlier rfl (by rw [of]; rfl) earlierStored first size checksum
  · exact Or.inl before

end Db

end VexDB.PgFs
