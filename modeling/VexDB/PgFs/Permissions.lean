import VexDB.PgFs.Statements

/-!
# Names are removed with write permission

`vexfs_remove`, `vexfs_move` and `vexfs_rename` each make their own selection of
permission checks before they touch directory entries.  A move checks the inode
it moves.  A rename checks neither the inode it renames nor the one it replaces,
and a recursive removal checks the top of the subtree only; so each entry a call
takes away was writable exactly when those further inodes were.
-/

namespace VexDB.PgFs

open Storage Option Tx PgFs.Tree
open VexFs (Bytes Name Kind DentryKey Digest Verbatim)

namespace Tree

variable {tree : Tree} {inode target : Nat} {key : DentryKey}

theorem mem_edges :
    (source, target) ∈ tree.edges ↔ ∃ name, tree.dentries.get (source, name) = some target := by
  simp only [edges, List.mem_map, Prod.mk.injEq, Prod.exists, tree.dentries.mem_entries]
  constructor
  · rintro ⟨_, name, _, entry, rfl, rfl⟩
    exact ⟨name, entry⟩
  · rintro ⟨name, entry⟩
    exact ⟨source, name, target, entry, rfl, rfl⟩

/-- An entry of a directory of a subtree leads into the subtree. -/
theorem mem_subtree_of_entry (below : key.1 ∈ tree.subtree inode)
    (entry : tree.dentries.get key = some target) : target ∈ tree.subtree inode :=
  mem_closure_of_edge (List.nodup_singleton _) (mem_edges.2 ⟨key.2, entry⟩) below

/-- An inode of a subtree is its top or the target of an entry below it. -/
theorem mem_subtree_cases (below : target ∈ tree.subtree inode) :
    target = inode ∨ ∃ key, key.1 ∈ tree.subtree inode ∧ tree.dentries.get key = some target := by
  rcases mem_closure_cases below with top | ⟨source, found, edge⟩
  · exact .inl (List.mem_singleton.1 top)
  · obtain ⟨name, entry⟩ := mem_edges.1 edge
    exact .inr ⟨(source, name), found, entry⟩

theorem removedWith_iff :
    tree.removedWith key inode other = true ↔ other = key ∨ other.1 ∈ tree.subtree inode := by
  unfold removedWith
  simp

end Tree

section

variable {H : Type} {db after : Db H} {env : Env} {path : Bytes}

theorem releaseInode_dentries
    (returned : releaseInode env inode row updates db = .ok (nothing, after)) :
    after.tree.dentries = db.tree.dentries := by
  rw [write_ok.1 returned]
  split_ifs
  · rfl
  · rfl

/-- A path names an entry of a directory that a user may write. -/
structure Db.Names (db : Db H) (user : User) (path : Bytes) (key : DentryKey) (inode : Nat) :
    Prop where
  resolved : db.resolveParent user path = .ok key
  writable : db.hasAclPermission user key.1 .write = true
  entry : db.tree.dentries.get key = some inode

section

variable {recursive : Bool} (returned : remove env path recursive db = .ok (nothing, after))
include returned

/-- What a removal has checked, and the tree it leaves. -/
theorem remove_ok :
    ∃ key inode row, db.Names env.user path key inode ∧ db.tree.inodes.get inode = some row ∧
      db.hasAclPermission env.user inode .write = true ∧
      if row.kind = .directory ∧ recursive = true then
        after.tree = (db.removeTree env.now key inode).tree.touch env.now key.1 ∧
          after.aclSets = db.aclSets ∧ after.workspace.rootInode = db.workspace.rootInode
      else after.tree.dentries = (db.tree.deleteDentry key).dentries := by
  unfold remove at returned
  simp only [bind_ok, requireWorkspace_ok, writableParent_ok, entryAt_ok, Prod.exists,
    requireInodePermission_ok, rejectIf_ok] at returned
  obtain ⟨_, _, ⟨_, rfl⟩, parent, name, _, ⟨resolved, parentWritable, rfl⟩, inode, row, _,
    ⟨entry, stored, rfl⟩, _, _, ⟨writable, rfl⟩, _, _, ⟨rfl, rfl⟩, _, _, ⟨_, rfl⟩, removed⟩ :=
    returned
  refine ⟨(parent, name), inode, row, ⟨resolved, parentWritable, entry⟩, stored, writable, ?_⟩
  simp only [onTree_ok] at removed
  obtain ⟨_, _, removed, _, _, rfl, _, _, committed, _, rfl⟩ := removed
  unfold removeChecked at removed
  split_ifs at removed ⊢ with tree
  · obtain rfl := write_ok.1 removed
    exact recordCommit_access committed
  · simp only [removeEntry, bind_ok, onTree_ok] at removed
    obtain ⟨_, _, rfl, released⟩ := removed
    rw [recordCommit_tree committed]
    exact releaseInode_dentries released

/-- The entries a removal leaves. -/
theorem remove_dentries :
    ∃ key inode row, db.Names env.user path key inode ∧ db.tree.inodes.get inode = some row ∧
      db.hasAclPermission env.user inode .write = true ∧
      ∀ other, after.tree.dentries.get other =
        if other = key ∨ (row.kind = .directory ∧ recursive = true ∧
            other.1 ∈ db.tree.subtree inode) then none
        else db.tree.dentries.get other := by
  obtain ⟨key, inode, row, names, stored, writable, left⟩ := remove_ok returned
  refine ⟨key, inode, row, names, stored, writable, fun other => ?_⟩
  split_ifs at left with tree
  · have kept : after.tree.dentries.get other =
        if db.tree.removedWith key inode other then none else db.tree.dentries.get other := by
      rw [left.1]
      exact get_deleteDentries _ _ _
    rw [kept]
    simp only [removedWith_iff, tree, true_and]
  · rw [left, get_deleteDentry]
    have single : ¬ (row.kind = .directory ∧ recursive = true ∧
        other.1 ∈ db.tree.subtree inode) := by
      rintro ⟨directory, flag, -⟩
      exact tree ⟨directory, flag⟩
    simp only [single, or_false]

end

/-- What a move has checked, and the entries it leaves. -/
theorem move_dentries (returned : move env source target db = .ok (nothing, after)) :
    ∃ sourceKey targetKey inode, db.Names env.user source sourceKey inode ∧
      db.hasAclPermission env.user inode .write = true ∧
      (sourceKey ≠ targetKey -> db.tree.dentries.get targetKey = none) ∧
      db.tree.Moved after.tree sourceKey targetKey inode := by
  unfold move at returned
  simp only [bind_ok, requireWorkspace_ok, checked_ok, requireInodePermission_ok, entryAt_ok,
    Prod.exists] at returned
  obtain ⟨_, _, ⟨_, rfl⟩, parent, name, _, ⟨sourceResolved, rfl⟩, targetParent, targetName, _,
    ⟨_, rfl⟩, _, _, ⟨sourceWritable, rfl⟩, _, _, ⟨_, rfl⟩, inode, _, _,
    ⟨entry, _, rfl⟩, _, _, ⟨writable, rfl⟩, moved⟩ := returned
  refine ⟨(parent, name), (targetParent, targetName), inode,
    ⟨sourceResolved, sourceWritable, entry⟩, writable, ?_⟩
  split_ifs at moved with same
  · obtain rfl := (pure_ok.1 moved).2
    exact ⟨fun different => absurd same different, same ▸ moved_refl _ entry⟩
  · simp only [bind_ok, requireDirectory_ok, requireFree_ok, onTree_ok, touchParents] at moved
    obtain ⟨_, _, ⟨_, rfl⟩, _, _, ⟨free, rfl⟩, _, _, cycle, _, _, rfl, _, _, rfl, _, _,
      committed, _, rfl⟩ := moved
    obtain rfl := requireNoCycle_ok cycle
    refine ⟨fun _ => free, ?_⟩
    rw [recordCommit_tree committed]
    exact moved_moveDentry _ entry _

/-- The entries that the statements of a rename leave. -/
theorem renameEntry_dentries (entry : db.tree.dentries.get source = some inode)
    (returned : renameEntry env path source target db = .ok (nothing, after)) :
    db.tree.Moved after.tree source target inode := by
  unfold renameEntry at returned
  simp only [bind_ok, onTree_ok, touchParents] at returned
  obtain ⟨_, _, rfl, _, _, rfl, _, _, committed, _, rfl⟩ := returned
  rw [recordCommit_tree committed]
  exact moved_moveDentry _ entry _

theorem replaceable_ok
    (returned : replaceable replace row target targetRow db = .ok (nothing, after)) :
    after = db := by
  unfold replaceable at returned
  simp only [bind_ok, rejectIf_ok] at returned
  obtain ⟨_, _, ⟨_, rfl⟩, _, _, ⟨_, rfl⟩, _, _, ⟨rfl, rfl⟩, _, rfl⟩ := returned
  rfl

theorem replacedEntry_ok (returned : replacedEntry key db = .ok (found, after)) :
    after = db ∧ ∀ inode row, found = some (inode, row) ->
      db.tree.dentries.get key = some inode := by
  obtain ⟨rfl, rfl⟩ := reading_ok.1 returned
  refine ⟨rfl, fun inode row present => ?_⟩
  obtain ⟨_, entry, stored⟩ := bind_eq_some_iff.1 present
  obtain ⟨_, _, same⟩ := map_eq_some_iff.1 stored
  rw [entry, (Prod.mk.inj same).1]

/-- What a rename between two different places does to the entries: the target gets
the inode of the source. -/
theorem rename_dentries (returned : rename env source target replace db = .ok (nothing, after)) :
    ∃ sourceKey targetKey inode, db.Names env.user source sourceKey inode ∧
      db.resolveParent env.user target = .ok targetKey ∧
      db.hasAclPermission env.user targetKey.1 .write = true ∧
      db.tree.Moved after.tree sourceKey targetKey inode := by
  unfold rename at returned
  simp only [bind_ok, requireWorkspace_ok, checked_ok, requireInodePermission_ok, entryAt_ok,
    Prod.exists] at returned
  obtain ⟨_, _, ⟨_, rfl⟩, parent, name, _, ⟨sourceResolved, rfl⟩, targetParent, targetName, _,
    ⟨targetResolved, rfl⟩, _, _, ⟨sourceWritable, rfl⟩, _, _, ⟨targetWritable, rfl⟩, inode, _, _,
    ⟨entry, _, rfl⟩, renamed⟩ := returned
  refine ⟨(parent, name), (targetParent, targetName), inode,
    ⟨sourceResolved, sourceWritable, entry⟩, targetResolved, targetWritable, ?_⟩
  split_ifs at renamed with same
  · obtain rfl := (pure_ok.1 renamed).2
    exact same ▸ moved_refl _ entry
  · simp only [bind_ok] at renamed
    obtain ⟨found, _, looked, renamed⟩ := renamed
    obtain ⟨rfl, target⟩ := replacedEntry_ok looked
    cases found with
    | none =>
      simp only [bind_ok] at renamed
      obtain ⟨_, _, cycle, renamed⟩ := renamed
      obtain rfl := requireNoCycle_ok cycle
      exact renameEntry_dentries entry renamed
    | some =>
      simp only [bind_ok] at renamed
      obtain ⟨_, _, checked, renamed⟩ := renamed
      obtain rfl := replaceable_ok checked
      split_ifs at renamed with alike
      · -- Both names are of one inode: the source name goes.
        simp only [bind_ok, onTree_ok] at renamed
        obtain ⟨_, _, rfl, _, _, rfl, _, _, committed, _, rfl⟩ := renamed
        rw [recordCommit_tree committed]
        intro other
        simp only [touch_dentries, get_deleteDentry]
        by_cases here : other = (targetParent, targetName)
        · rw [here, if_neg fun equal => same equal.symm, if_pos rfl, target _ _ rfl, alike]
        · rw [if_neg here]
      · simp only [bind_ok, dropReplaced, onTree_ok] at renamed
        obtain ⟨_, _, cycle, _, _, ⟨_, _, rfl, released⟩, renamed⟩ := renamed
        obtain rfl := requireNoCycle_ok cycle
        have kept : ∀ key, _ = _ := fun key =>
          congrArg (fun table : Table DentryKey Nat => table.get key)
            (releaseInode_dentries released)
        have sourceKept := (kept (parent, name)).trans (get_deleteDentry _ _ _)
        rw [if_neg same, entry] at sourceKept
        intro other
        rw [renameEntry_dentries sourceKept renamed other]
        split_ifs with here there
        · rfl
        · rfl
        · refine (kept other).trans ?_
          rw [get_deleteDentry, if_neg here]

end

/-! ## The guarantee -/

/-- A call that takes names away. -/
inductive NameCall
  | remove (path : Bytes) (recursive : Bool)
  | move (source target : Bytes)
  | rename (source target : Bytes) (replace : Bool)

variable {H : Type}

/-- The statements of a call. -/
def NameCall.call (env : Env) : NameCall -> Sql H Unit
  | .remove path recursive => PgFs.remove env path recursive
  | .move source target => PgFs.move env source target
  | .rename source target replace => PgFs.rename env source target replace

/-- A directory entry that a call deletes, moves or replaces. -/
def TakenAway (db after : Db H) (key : DentryKey) (inode : Nat) : Prop :=
  db.tree.dentries.get key = some inode ∧ after.tree.dentries.get key ≠ some inode

/-- The user could write the parent and the inode of every entry a call takes away. -/
def TakesWritable (user : User) (db after : Db H) : Prop :=
  ∀ key inode, TakenAway db after key inode ->
    db.hasAclPermission user key.1 .write = true ∧ db.hasAclPermission user inode .write = true

/-- The user may write the inodes that a call does not check: everything below a
directory that is removed recursively, and for a rename between two places the inode
renamed and another inode in its place. -/
def NameCall.Covered (db : Db H) (user : User) : NameCall -> Prop
  | .remove path recursive => ∀ key inode row, db.resolveParent user path = .ok key ->
      db.tree.dentries.get key = some inode -> db.tree.inodes.get inode = some row ->
      row.kind = .directory -> recursive = true ->
      ∀ other ∈ db.tree.subtree inode, db.hasAclPermission user other .write = true
  | .move _ _ => True
  | .rename source target _ => ∀ sourceKey targetKey inode,
      db.resolveParent user source = .ok sourceKey -> db.resolveParent user target = .ok targetKey →
      db.tree.dentries.get sourceKey = some inode -> sourceKey ≠ targetKey ->
      db.hasAclPermission user inode .write = true ∧
        ∀ other, db.tree.dentries.get targetKey = some other -> other ≠ inode ->
          db.hasAclPermission user other .write = true

section

variable {db after : Db H} {env : Env}

theorem remove_takesWritable (returned : remove env path recursive db = .ok (nothing, after)) :
    TakesWritable env.user db after ↔ (NameCall.remove path recursive).Covered db env.user := by
  obtain ⟨key, inode, row, ⟨resolved, parentWritable, entry⟩, stored, writable, left⟩ :=
    remove_dentries returned
  constructor
  · intro permitted _ _ _ resolved' entry' stored' directory flag other below
    cases resolved.symm.trans resolved'
    cases entry.symm.trans entry'
    cases stored.symm.trans stored'
    rcases mem_subtree_cases below with rfl | ⟨place, parentBelow, found⟩
    · exact writable
    · refine (permitted place other ⟨found, ?_⟩).2
      rw [left, if_pos (.inr ⟨directory, flag, parentBelow⟩)]
      exact some_ne_none _ ∘ Eq.symm
  · rintro covered place _ ⟨found, gone⟩
    rw [left] at gone
    split_ifs at gone with removed
    · rcases removed with rfl | ⟨directory, flag, below⟩
      · cases entry.symm.trans found
        exact ⟨parentWritable, writable⟩
      · have all := covered key inode row resolved entry stored directory flag
        exact ⟨all _ below, all _ (mem_subtree_of_entry below found)⟩
    · exact absurd found gone

theorem move_takesWritable (returned : move env source target db = .ok (nothing, after)) :
    TakesWritable env.user db after := by
  obtain ⟨sourceKey, _, _, ⟨_, parentWritable, entry⟩, writable, free, left⟩ :=
    move_dentries returned
  rintro place _ ⟨found, gone⟩
  rw [left] at gone
  split_ifs at gone with onTarget onSource
  · subst onTarget
    by_cases same : sourceKey = place
    · subst same
      cases entry.symm.trans found
      exact ⟨parentWritable, writable⟩
    · rw [free same] at found
      cases found
  · subst onSource
    cases entry.symm.trans found
    exact ⟨parentWritable, writable⟩
  · exact absurd found gone

theorem rename_takesWritable
    (returned : rename env source target replace db = .ok (nothing, after)) :
    TakesWritable env.user db after ↔
      (NameCall.rename source target replace).Covered db env.user := by
  obtain ⟨sourceKey, targetKey, inode, ⟨sourceResolved, parentWritable, entry⟩, targetResolved,
    targetWritable, left⟩ := rename_dentries returned
  constructor
  · intro permitted _ _ _ sourceResolved' targetResolved' entry' different
    cases sourceResolved.symm.trans sourceResolved'
    cases targetResolved.symm.trans targetResolved'
    cases entry.symm.trans entry'
    constructor
    · refine (permitted sourceKey inode ⟨entry, ?_⟩).2
      rw [left, if_neg different, if_pos rfl]
      exact some_ne_none _ ∘ Eq.symm
    · intro other found distinct
      refine (permitted targetKey other ⟨found, ?_⟩).2
      rw [left, if_pos rfl]
      exact fun same => distinct (some.inj same).symm
  · rintro covered place other ⟨found, gone⟩
    rw [left] at gone
    have checks := covered sourceKey targetKey inode sourceResolved targetResolved entry
    split_ifs at gone with onTarget onSource
    · subst onTarget
      have distinct : other ≠ inode := fun same => gone (by rw [same])
      have different : sourceKey ≠ place := by
        rintro rfl
        exact distinct (mem_unique found entry)
      exact ⟨targetWritable, (checks different).2 other found distinct⟩
    · subst onSource
      cases entry.symm.trans found
      exact ⟨parentWritable, (checks onTarget).1⟩
    · exact absurd found gone

end

/-- Every call that takes names away takes only names whose parent and inode the user
could write, exactly when the user could write what the call does not check. -/
theorem names_taken_writable_iff {db after : Db H} {env : Env} (call : NameCall)
    (returned : call.call env db = .ok ((), after)) :
    TakesWritable env.user db after ↔ call.Covered db env.user := by
  cases call with
  | remove path recursive => exact remove_takesWritable returned
  | move source target => exact iff_of_true (move_takesWritable returned) trivial
  | rename => exact rename_takesWritable returned

/-- The owner of a workspace lets a guest write the root and has a file there. -/
def sharedTrial : Db Verbatim :=
  trial [(owner, .aclGrant 1 ⟨"guest", .allow, "write,execute", 0⟩),
    (owner, .write [47, 102] [1])]

/-- A new name for the file. -/
def guestRename : NameCall := .rename [47, 102] [47, 103] false

/-- The owner may rename the file. -/
theorem names_taken_writable_iff_shared :
    TakesWritable owner sharedTrial
      (settle (guestRename.call ⟨owner, 5000, 7, ""⟩) sharedTrial) := by
  have source : sharedTrial.resolveParent owner [47, 102] = .ok (1, [102]) := by decide +kernel
  have target : sharedTrial.resolveParent owner [47, 103] = .ok (1, [103]) := by decide +kernel
  have entry : sharedTrial.tree.dentries.get (1, [102]) = some 2 := by decide +kernel
  have free : sharedTrial.tree.dentries.get (1, [103]) = none := by decide +kernel
  have returned : guestRename.call ⟨owner, 5000, 7, ""⟩ sharedTrial = .ok ((), _) :=
    settle_ok (by decide +kernel)
  refine (names_taken_writable_iff guestRename returned).2 ?_
  intro _ _ _ isSource isTarget isEntry _
  cases source.symm.trans isSource
  cases target.symm.trans isTarget
  cases entry.symm.trans isEntry
  refine ⟨by decide +kernel, fun other taken => ?_⟩
  cases free.symm.trans taken

/-- The guest may not write the file, and renames it. -/
theorem guest_renames_unwritable : Reachable (fun _ _ => True) sharedTrial ∧
    ∃ after, guestRename.call ⟨guest, 5000, 7, ""⟩ sharedTrial = .ok ((), after) ∧
      ¬ TakesWritable guest sharedTrial after := by
  refine ⟨reachable_trial _, _, settle_ok (by decide +kernel), fun writable => ?_⟩
  have moved := writable (1, [102]) 2 ⟨by decide +kernel, by decide +kernel⟩
  exact absurd moved.2 (by decide +kernel)

end VexDB.PgFs
