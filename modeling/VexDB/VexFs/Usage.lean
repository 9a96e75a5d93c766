import Mathlib.Algebra.BigOperators.Ring.Finset
import VexDB.VexFs.Soundness

/-!
# Usage counters

The workspace row counts the live files and their bytes.  The counters move with
the statements that write inode rows, so they are exact in every reachable state.
-/

namespace VexDB.VexFs

open Storage Db

variable {H : Type} {db after : Db H}

/-- The counters are the totals over the inode rows. -/
def Db.Counted (db : Db H) : Prop :=
  db.workspace.liveFiles = db.inodes.total (fun _ => fileWeight) ∧
    db.workspace.liveBytes = db.inodes.total fun _ => byteWeight

theorem Db.Counted.insertInode (counted : db.Counted) (row : Inode) :
    (db.insertInode db.nextInode row).Counted := by
  have isNew : db.inodes.get db.nextInode = none := db.inodes.get_fresh _
  have added : ∀ weight : Inode -> Int, (db.inodes.set db.nextInode row).total (fun _ => weight) =
      db.inodes.total (fun _ => weight) + weight row := by
    intro weight
    rw [<- Table.total_set, Table.weightAt, isNew]
    exact (add_zero _).symm
  unfold Db.Counted Db.insertInode
  rw [added, added, counted.1, counted.2]
  exact ⟨rfl, rfl⟩

theorem Db.Counted.updateInodes (counted : db.Counted) (change : Nat -> Inode -> Option Inode) :
    (db.updateInodes change).Counted := by
  unfold Db.Counted Db.updateInodes
  rw [Table.total_update, Table.total_update, counted.1, counted.2]
  exact ⟨rfl, rfl⟩

theorem Db.Counted.restored (counted : db.Counted) (env : Env) (target : Nat) :
    (db.restored env target).Counted := by
  obtain ⟨_, frame⟩ := (db.restoredTree env target).withVersions_frame
    (db.aliasesOfRestore env target)
  obtain ⟨_, _, _, tree⟩ := db.restoreWorkspaceTree_eq env target
  have cleared : (db.clearedTree env target).Counted := by
    apply Counted.updateInodes
    apply Counted.updateInodes
    exact counted
  have rebuilt : (db.restoreWorkspaceTree env target).Counted := by
    rw [tree]
    exact cleared
  unfold Db.restored
  rw [frame]
  exact rebuilt.updateInodes _

variable [DecidableEq H] [Digest H]

theorem Db.Counted.storedVersion (counted : db.Counted) (env : Env) (inode version size : Nat)
    (previous : Option Nat) (pieces : List (Nat × Option Nat × Bytes)) :
    (db.storedVersion env inode version size previous pieces).Counted := by
  obtain ⟨_, _, _, _, frame⟩ := db.storedVersion_frame env inode version size previous pieces
  rw [frame]
  exact counted.updateInodes _

theorem Change.counted (counted : db.Counted) (change : Change db after) : after.Counted := by
  cases change with
  | newInode => exact counted.insertInode _
  | symlink env parent name =>
    have created := counted.insertInode (VexFs.newInode env .symlink 0o777)
    obtain ⟨_, _, same⟩ := ((db.insertInode db.nextInode
      (VexFs.newInode env .symlink 0o777)).insertDentry (parent, name)
        db.nextInode).inheritAcl_frame parent db.nextInode
    apply Counted.storedVersion
    unfold Db.withLink addedDentry
    rw [same]
    apply Counted.updateInodes
    exact created
  | attributes | tombstone | aliasVersion => exact counted.updateInodes _
  | deleteDentry =>
    unfold Db.deleteDentry
    split <;> exact counted
  | moveDentry =>
    unfold Db.moveDentry
    split <;> exact counted
  | version => exact counted.storedVersion _ _ _ _ _ _
  | settings _ _ _ _ files bytes => exact ⟨files.trans counted.1, bytes.trans counted.2⟩
  | restore env target => exact counted.restored env target
  | _ => exact counted

theorem Reachable.counted {allowed : Db H -> Step -> Prop}
    (reached : Reachable name allowed db) : db.Counted := by
  refine reached.keep (fun env elsewhere => ?_) fun db _ counted step => ?_
  · have empty : (blank elsewhere : Db H).Counted := ⟨rfl, rfl⟩
    exact empty.insertInode (newInode env .directory 0o755)
  · match step with
    | .transition (.change change) => exact change.counted counted
    | .transition (.beside same _) =>
      rw [same]
      exact counted
    | .collect .. => exact counted

/-- After every sequence of calls the counters of the workspace are the number of live
files and symbolic links and the sum of their sizes, and the check for corrupt counters
passes. -/
theorem usage_exact_runSteps (env : Env) (elsewhere : RowIds) (workspace : String)
    (steps : List Step) :
    let db : Db H := runSteps workspace steps (initial env elsewhere)
    db.workspace.liveFiles = db.countedSizes.length ∧
      db.workspace.liveBytes = db.countedSizes.sum ∧ db.currentQuotaStats =
        .ok ⟨db.countedSizes.length, db.countedSizes.sum, db.countedSizes.foldr max 0⟩ := by
  intro db
  obtain ⟨files, bytes⟩ : db.Counted := (Reachable.initial env elsewhere).runSteps.counted
  have count := db.inodes.total_filter (fun _ => Inode.counted) fun _ _ => (1 : Int)
  have sizes := db.inodes.total_filter (fun _ => Inode.counted) fun _ row => (row.size : Int)
  have filesExact : db.workspace.liveFiles = db.countedSizes.length := by
    refine (files.trans count.symm).trans ?_
    simp [Table.total, Table.filter, countedSizes]
  have bytesExact : db.workspace.liveBytes = db.countedSizes.sum := by
    refine (bytes.trans sizes.symm).trans ?_
    rw [countedSizes, Nat.cast_list_sum, List.map_map]
    rfl
  exact ⟨filesExact, bytesExact, if_pos ⟨filesExact, bytesExact⟩⟩

end VexDB.VexFs
