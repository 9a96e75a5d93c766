import VexDB.PgFs.System

/-!
# What statements do

For each check and each statement that the functions share: when it succeeds, and
in which state.  Calls are taken apart with these lemmas and never unfolded to
the state monad.
-/

namespace VexDB.PgFs

open Storage CommitBatch
open VexFs (Bytes Name Kind DentryKey XattrKey Digest)
open Tx (bind_ok reading_ok rejectIf_ok pure_ok ReadOnly)

section

variable {H α : Type} {db after : Db H} {env : Env} {inode commit : Nat} {path : Bytes} {key :
  DentryKey} {nothing : Unit} {permission : Permission}

/-- A call that succeeds ends in the state it leaves. -/
theorem settle_ok {call : Sql H Unit} (succeeds : (call db).toBool = true) :
    call db = .ok ((), settle call db) := by
  unfold settle
  cases outcome : call db with
  | error =>
    rw [outcome] at succeeds
    cases succeeds
  | ok result => rfl

theorem checked_ok : checked look db = .ok (value, after) ↔ look db = .ok value ∧ after = db := by
  unfold checked
  cases look db with
  | error => simp [Except.map]
  | ok =>
    simp only [Except.map, Except.ok.injEq, Prod.mk.injEq]
    exact and_congr Iff.rfl eq_comm

theorem requireInodePermission_ok :
    requireInodePermission env inode permission db = .ok (nothing, after) ↔
      db.hasAclPermission env.user inode permission = true ∧ after = db := by
  unfold requireInodePermission
  simp [bind_ok, reading_ok, rejectIf_ok, and_assoc]

theorem requireWorkspace_ok :
    requireWorkspace env permission db = .ok (nothing, after) ↔
      db.mayUse env.user permission = true ∧ after = db := by
  unfold requireWorkspace
  simp [bind_ok, reading_ok, rejectIf_ok, and_assoc]

theorem onTree_ok :
    onTree change db = .ok (nothing, after) ↔ after = { db with tree := change db.tree } :=
  Tx.write_ok

theorem writableParent_ok :
    writableParent env path db = .ok (key, after) ↔ db.resolveParent env.user path = .ok key ∧
        db.hasAclPermission env.user key.1 .write = true ∧ after = db := by
  unfold writableParent
  simp only [bind_ok, checked_ok, requireInodePermission_ok, pure_ok, and_assoc,
    exists_and_left, exists_eq_left, exists_const]
  constructor
  · rintro ⟨_, resolved, allowed, rfl, rfl⟩
    exact ⟨resolved, allowed, rfl⟩
  · rintro ⟨resolved, allowed, rfl⟩
    exact ⟨key, resolved, allowed, rfl, rfl⟩

theorem entryAt_ok :
    entryAt key db = .ok ((inode, row), after) ↔
      db.tree.dentries.get key = some inode ∧ db.tree.inodes.get inode = some row ∧
        after = db := by
  unfold entryAt
  rw [Tx.require_ok, Option.bind_eq_some_iff]
  constructor
  · rintro ⟨⟨_, entry, found⟩, rfl⟩
    obtain ⟨_, stored, same⟩ := Option.map_eq_some_iff.1 found
    cases same
    exact ⟨entry, stored, rfl⟩
  · rintro ⟨entry, stored, rfl⟩
    exact ⟨⟨inode, entry, by rw [stored]; rfl⟩, rfl⟩

theorem requireDirectory_ok :
    requireDirectory inode db = .ok (nothing, after) ↔
      (db.tree.inodes.get inode).all (fun row => row.kind = .directory) = true ∧ after = db := by
  unfold requireDirectory
  simp only [bind_ok, reading_ok, rejectIf_ok, and_assoc, exists_and_left, exists_eq_left]
  cases db.tree.inodes.get inode <;> simp

theorem requireFree_ok :
    requireFree key db = .ok (nothing, after) ↔
      db.tree.dentries.get key = none ∧ after = db := by
  unfold requireFree
  simp [bind_ok, reading_ok, rejectIf_ok, and_assoc]

instance {look : Db H -> Except PgError α} : ReadOnly (checked look : Sql H α) :=
  ⟨fun returned => (checked_ok.1 returned).2⟩

instance {permission : Permission} :
    ReadOnly (requireInodePermission env inode permission : Sql H Unit) :=
  ⟨fun returned => (requireInodePermission_ok.1 returned).2⟩

instance {permission : Permission} : ReadOnly (requireWorkspace env permission : Sql H Unit) :=
  ⟨fun returned => (requireWorkspace_ok.1 returned).2⟩

instance : ReadOnly (writableParent env path : Sql H DentryKey) := by
  unfold writableParent
  infer_instance

instance : ReadOnly (entryAt key : Sql H (Nat × Inode)) := by
  unfold entryAt
  infer_instance

instance : ReadOnly (requireDirectory inode : Sql H Unit) :=
  ⟨fun returned => (requireDirectory_ok.1 returned).2⟩

instance : ReadOnly (requireFree key : Sql H Unit) :=
  ⟨fun returned => (requireFree_ok.1 returned).2⟩

/-- A check on cycles changes nothing. -/
theorem requireNoCycle_ok
    (returned : requireNoCycle inode row target error db = .ok (nothing, after)) : after = db := by
  unfold requireNoCycle at returned
  split_ifs at returned
  · simp only [bind_ok, rejectIf_ok] at returned
    obtain ⟨_, _, ⟨rfl, rfl⟩, _, _, ⟨_, rfl⟩, _, rfl⟩ := returned
    rfl
  · exact (pure_ok.1 returned).2

/-- The state after a commit without a batch, or after the first of a batch. -/
def Db.advanceHead (db : Db H) : Db H :=
  { db with
    workspace.headCommit := db.workspace.headCommit + 1
    workspace.historyFloor :=
      if db.workspace.historyFloor = 0 then db.workspace.headCommit + 1
      else db.workspace.historyFloor
    batch := db.batch.map fun _ => ⟨some (db.workspace.headCommit + 1)⟩ }

/-- A commit of a batch is recorded once. -/
theorem recordCommit_ok :
    recordCommit path db = .ok (commit, after) ↔ path.length <= 4096 ∧
        ((db.batch.bind recorded = some commit ∧ after = db) ∨
          (db.batch.bind recorded = none ∧ after = db.advanceHead ∧
            commit = after.workspace.headCommit)) := by
  unfold recordCommit
  simp only [bind_ok, rejectIf_ok, reading_ok]
  constructor
  · rintro ⟨_, _, ⟨short, rfl⟩, _, _, ⟨rfl, rfl⟩, returned⟩
    refine ⟨Nat.le_of_not_lt short, ?_⟩
    cases recorded : Option.bind _ recorded with
    | some =>
      rw [recorded] at returned
      obtain ⟨rfl, rfl⟩ := pure_ok.1 returned
      exact .inl ⟨rfl, rfl⟩
    | none =>
      rw [recorded] at returned
      obtain ⟨_, _, rfl, rfl, rfl⟩ := returned
      exact .inr ⟨rfl, rfl, rfl⟩
  · rintro ⟨short, recorded⟩
    refine ⟨(), _, ⟨Nat.not_lt.2 short, rfl⟩, _, _, ⟨rfl, rfl⟩, ?_⟩
    rcases recorded with ⟨recorded, rfl⟩ | ⟨fresh, rfl, rfl⟩
    · rw [recorded]
      exact pure_ok.2 ⟨rfl, rfl⟩
    · rw [fresh]
      simp only [bind_ok, reading_ok]
      exact ⟨(), _, rfl, rfl, rfl⟩

variable (returned : recordCommit path db = .ok (commit, after))
include returned

/-- A commit leaves the rows that paths and permissions depend on as they are. -/
theorem recordCommit_access :
    after.tree = db.tree ∧ after.aclSets = db.aclSets ∧
      after.workspace.rootInode = db.workspace.rootInode := by
  obtain ⟨_, ⟨_, rfl⟩ | ⟨_, rfl, _⟩⟩ := recordCommit_ok.1 returned
  · exact ⟨rfl, rfl, rfl⟩
  · exact ⟨rfl, rfl, rfl⟩

theorem recordCommit_tree : after.tree = db.tree :=
  (recordCommit_access returned).1

end

/-! ## Directory entries -/

namespace Tree

variable (tree : Tree)

@[simp] theorem updateInodes_dentries (change : Nat → Inode → Option Inode) :
    (tree.updateInodes change).dentries = tree.dentries := rfl

@[simp] theorem touch_dentries (now inode : Nat) :
    (tree.touch now inode).dentries = tree.dentries := rfl

theorem get_deleteDentries (condition : DentryKey -> Bool) (key : DentryKey) :
    (tree.deleteDentries condition).dentries.get key =
      if condition key then none else tree.dentries.get key := by
  by_cases dropped : condition key = true
  · rw [if_pos dropped]
    exact Table.get_filter_of_dropped _ fun _ => by simp [dropped]
  · rw [if_neg dropped]
    exact Table.get_filter_of_kept _ fun _ => by simp [dropped]

theorem get_deleteDentry (key other : DentryKey) :
    (tree.deleteDentry key).dentries.get other =
      if other = key then none else tree.dentries.get other := by
  unfold deleteDentry
  rw [get_deleteDentries]
  simp only [decide_eq_true_eq]

/-- The entry of one name is that of another afterwards, and the others stay. -/
def Moved (tree after : Tree) (source target : DentryKey) (inode : Nat) : Prop :=
  ∀ key, after.dentries.get key =
    if key = target then some inode else if key = source then none else tree.dentries.get key

theorem moved_refl (entry : tree.dentries.get key = some inode) :
    tree.Moved tree key key inode := by
  intro other
  split_ifs with here
  · rw [here, entry]
  · rfl

theorem moved_moveDentry (entry : tree.dentries.get source = some inode) (target : DentryKey) :
    tree.Moved (tree.moveDentry source target) source target inode := by
  intro key
  unfold moveDentry
  rw [entry]
  rw [Table.get_set, Table.get_erase]

end Tree

end VexDB.PgFs
