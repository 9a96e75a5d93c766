import VexDB.PgFs.Permissions

/-!
# Recursive removal

The recursive form of `vexfs_remove` deletes the entries of a subtree and decides
in the same statement which inodes have lost their last entry.  All parts of the
statement read the entries as of its start, so an inode with an entry in the
subtree always counts as linked: no file or symbolic link is released, and the
usage counters do not change.  Removal is exact only if there was nothing but
directories to release, and if no path from outside leads into the subtree.
-/

namespace VexDB.PgFs

open Storage List Inode PgFs.Tree Bool Db
open VexFs (Bytes Name Kind DentryKey Digest Verbatim)

/-! ## Rows after an update -/

/-- What decides about the access to an inode. -/
def Inode.access (row : Inode) : Bool × Nat × Option Nat := (row.live, row.ownerOid, row.aclSet)

namespace Tree

variable (tree : Tree)

theorem get_updateInodes (change : Nat -> Inode -> Option Inode) (inode : Nat) :
    (tree.updateInodes change).inodes.get inode =
      (tree.inodes.get inode).map fun row => (change inode row).getD row :=
  Table.get_update _ _ _

theorem touch_access (now inode other : Nat) :
    ((tree.touch now inode).inodes.get other).map access =
      (tree.inodes.get other).map access := by
  unfold touch updateInode
  rw [get_updateInodes, Option.map_map]
  split_ifs
  · rfl
  · rfl

theorem bury_access (now : Nat) (condition : Nat -> Inode -> Bool) (other : Nat) :
    ((tree.bury now condition).inodes.get other).map access =
      (tree.inodes.get other).map fun row =>
        (row.live && !condition other row, row.ownerOid, row.aclSet) := by
  unfold bury
  rw [get_updateInodes, Option.map_map]
  congr 1
  funext row
  dsimp only [Function.comp]
  split_ifs with buried
  · rw [buried, Bool.not_true, Bool.and_false]
    rfl
  · rw [not_eq_true] at buried
    rw [buried, Bool.not_false, Bool.and_true]
    rfl

/-- An update that does not change what the rows weigh leaves the counters. -/
theorem updateInodes_counters (same : ∀ inode row other, (inode, row) ∈ tree.inodes.entries ->
      change inode row = some other ->
      other.fileWeight = row.fileWeight ∧ other.byteWeight = row.byteWeight) :
    (tree.updateInodes change).liveFiles = tree.liveFiles ∧
      (tree.updateInodes change).liveBytes = tree.liveBytes := by
  have changed : ∀ entry ∈ tree.changedInodes change, entry.2.2.fileWeight = entry.2.1.fileWeight ∧
        entry.2.2.byteWeight = entry.2.1.byteWeight := by
    rintro ⟨_, _, _⟩ member
    simp only [changedInodes, mem_filterMap, Option.map_eq_some_iff, Prod.exists] at member
    obtain ⟨_, _, stored, _, found, rfl, rfl, rfl⟩ := member
    exact same _ _ _ stored found
  unfold updateInodes
  constructor
  · have zero : ((tree.changedInodes change).map fun entry =>
        entry.2.2.fileWeight - entry.2.1.fileWeight).sum = 0 := by
      apply sum_eq_zero
      intro difference member
      obtain ⟨entry, found, rfl⟩ := mem_map.1 member
      rw [(changed entry found).1, sub_self]
    rw [zero, add_zero]
  · have zero : ((tree.changedInodes change).map fun entry =>
        entry.2.2.byteWeight - entry.2.1.byteWeight).sum = 0 := by
      apply sum_eq_zero
      intro _ member
      obtain ⟨entry, found, rfl⟩ := mem_map.1 member
      rw [(changed entry found).2, sub_self]
    rw [zero, add_zero]

theorem touch_counters (now inode : Nat) :
    (tree.touch now inode).liveFiles = tree.liveFiles ∧
      (tree.touch now inode).liveBytes = tree.liveBytes := by
  apply updateInodes_counters
  intro _ _ _ _ found
  split_ifs at found
  cases found
  exact ⟨rfl, rfl⟩

end Tree

section

variable {H : Type} {db after : Db H}

/-- Rows that agree on the owner and the access control set, and are not live where
they were not, give no further permissions. -/
theorem hasAclPermission_mono (sets : after.aclSets = db.aclSets)
    (rows : (after.tree.inodes.get inode).map access =
      (db.tree.inodes.get inode).map fun row =>
        (row.live && keeps row, row.ownerOid, row.aclSet)) :
    after.hasAclPermission user inode permission = true ↔
      db.hasAclPermission user inode permission = true ∧
        (db.tree.inodes.get inode).all keeps = true := by
  have entries : after.aclEntries inode = db.aclEntries inode := by
    unfold aclEntries
    rw [sets]
    cases before : db.tree.inodes.get inode with
    | none =>
      rw [before, Option.map_none, Option.map_eq_none_iff] at rows
      rw [rows]
    | some row =>
      rw [before, Option.map_some] at rows
      obtain ⟨other, stored, same⟩ := Option.map_eq_some_iff.1 rows
      rw [stored, Option.bind_some, Option.bind_some]
      rw [show other.aclSet = row.aclSet from congrArg (fun access => access.2.2) same]
  unfold hasAclPermission aclHas liveInode
  rw [entries]
  cases before : db.tree.inodes.get inode with
  | none =>
    rw [before, Option.map_none, Option.map_eq_none_iff] at rows
    rw [rows]
    simp
  | some row =>
    rw [before, Option.map_some] at rows
    obtain ⟨other, stored, same⟩ := Option.map_eq_some_iff.1 rows
    have live : other.live = (row.live && keeps row) := congrArg Prod.fst same
    have owner : other.ownerOid = row.ownerOid := congrArg (fun access => access.2.1) same
    rw [stored]
    cases kept : keeps row with
    | false =>
      simp [Option.filter, live, kept]
    | true =>
      cases alive : row.live with
      | false =>
        simp [Option.filter, live, alive]
      | true =>
        simp [Option.filter, live, alive, kept, owner]

end

/-! ## The tree after a recursive removal -/

section

variable {H : Type} {db after : Db H} {now : Nat} {key : DentryKey} {inode : Nat}

theorem linked_iff {tree : Tree} {target : Nat} :
    tree.linked target = true ↔ ∃ key, tree.dentries.get key = some target := by
  unfold linked
  rw [any_eq_true]
  constructor
  · rintro ⟨⟨key, other⟩, member, same⟩
    obtain rfl : _ = target := by simpa using same
    exact ⟨key, (tree.dentries.mem_entries _ _).1 member⟩
  · rintro ⟨key, entry⟩
    exact ⟨(key, target), (tree.dentries.mem_entries _ _).2 entry, by simp⟩

/-- The statement makes exactly the live directories of the subtree not live: an inode
with a deleted entry is linked as of the start. -/
theorem removeTree_tree : (db.removeTree now key inode).tree =
    (db.tree.deleteDentries (db.tree.removedWith key inode)).bury now fun other row =>
      row.live && (row.kind = .directory && (db.tree.subtree inode).contains other) := by
  unfold removeTree
  dsimp only
  congr 1
  funext other row
  have none_lost : ((db.tree.dentries.entries.any fun entry =>
      entry.2 = other && db.tree.removedWith key inode entry.1) && !db.tree.linked other) =
      false := by
    rw [and_eq_false_iff, not_eq_false', linked_iff]
    by_cases linked : ∃ key, db.tree.dentries.get key = some other
    · exact .inr linked
    · left
      rw [any_eq_false]
      rintro ⟨place, target⟩ member removed
      obtain ⟨same, _⟩ : _ = _ ∧ _ := by simpa using removed
      exact linked ⟨place, same ▸ (db.tree.dentries.mem_entries _ _).1 member⟩
  rw [and_assoc (decide (row.kind ≠ .directory)), none_lost]
  simp

theorem removeTree_inodes (other : Nat) :
    (((db.removeTree now key inode).tree.touch now key.1).inodes.get other).map access =
      (db.tree.inodes.get other).map fun row =>
        (row.live && !(row.kind = .directory && (db.tree.subtree inode).contains other),
          row.ownerOid, row.aclSet) := by
  rw [touch_access, removeTree_tree, bury_access]
  congr 1
  funext row
  cases row.live with
  | false => rfl
  | true => rfl

theorem removeTree_counters :
    ((db.removeTree now key inode).tree.touch now key.1).liveFiles = db.tree.liveFiles ∧
      ((db.removeTree now key inode).tree.touch now key.1).liveBytes = db.tree.liveBytes := by
  have touched := touch_counters (db.removeTree now key inode).tree now key.1
  rw [touched.1, touched.2, removeTree_tree]
  apply updateInodes_counters
  intro _ row _ _ found
  split_ifs at found with buried
  cases found
  have directory : row.kind = .directory := by simp_all
  unfold fileWeight byteWeight counted
  simp [directory]

end

/-! ## Paths -/

section

variable {H : Type} {db after : Db H}

theorem resolveFrom_concat :
    db.resolveFrom user start (names ++ [name]) = .ok target ↔
      ∃ parent, db.resolveFrom user start names = .ok parent ∧
        db.hasAclPermission user parent .execute = true ∧
        db.tree.dentries.get (parent, name) = some target := by
  induction names generalizing start with
  | nil =>
    rw [nil_append, resolveFrom, resolveFrom]
    simp only [Except.ok.injEq, exists_eq_left']
    cases allowed : db.hasAclPermission user start .execute with
    | false => simp
    | true =>
      cases entry : db.tree.dentries.get (start, name) with
      | none => simp
      | some => simp [resolveFrom]
  | cons first names step =>
    rw [cons_append, resolveFrom, resolveFrom]
    cases allowed : db.hasAclPermission user start .execute with
    | false => simp
    | true =>
      cases entry : db.tree.dentries.get (start, first) with
      | none => simp
      | some => exact step

/-- A change that takes away entries and liveness, but nothing of those a walk uses, keeps
where the walk leads. -/
theorem resolveFrom_iff (entries : ∀ key target, after.tree.dentries.get key = some target ->
      db.tree.dentries.get key = some target)
    (permissions : ∀ inode, after.hasAclPermission user inode .execute = true ->
      db.hasAclPermission user inode .execute = true) (within : List Name -> Prop)
    (shorter : ∀ names name, within (names ++ [name]) -> within names)
    (kept : ∀ names name parent target, within (names ++ [name]) ->
      db.resolveFrom user start names = .ok parent ->
      db.hasAclPermission user parent .execute = true ->
      db.tree.dentries.get (parent, name) = some target ->
      after.hasAclPermission user parent .execute = true ∧
        after.tree.dentries.get (parent, name) = some target)
    (holds : within names) (target : Nat) :
    after.resolveFrom user start names = .ok target ↔
      db.resolveFrom user start names = .ok target := by
  induction names using reverseRecOn generalizing target with
  | nil => exact Iff.rfl
  | append_singleton names name step =>
    have shorterHolds := shorter names name holds
    rw [resolveFrom_concat, resolveFrom_concat]
    constructor
    · rintro ⟨parent, found, allowed, entry⟩
      exact ⟨parent, (step shorterHolds parent).1 found, permissions _ allowed, entries _ _ entry⟩
    · rintro ⟨parent, found, allowed, entry⟩
      exact ⟨parent, (step shorterHolds parent).2 found,
        kept names name parent target holds found allowed entry⟩

end

/-! ## Exactness -/

section

variable {H : Type}

/-- A live inode, not a directory, that the removal takes all entries from and that no open
or retained handle is on. -/
def Db.loses (db : Db H) (key : DentryKey) (inode other : Nat) (row : Inode) : Bool :=
  row.counted && db.tree.linked other &&
    (db.tree.dentries.entries.all fun entry =>
      entry.2 ≠ other || db.tree.removedWith key inode entry.1) &&
    !db.mounts.held other

/-- The rows of the inodes that the removal takes all entries from. -/
def Db.lostFiles (db : Db H) (key : DentryKey) (inode : Nat) : List Inode :=
  (db.tree.inodes.entries.filter fun entry => db.loses key inode entry.1 entry.2).map Prod.snd

/-- The components lead to a path or below it. -/
def Below (path : Bytes) (names : List Name) : Prop :=
  ∃ parts, pathParts path = .ok parts ∧ parts <+: names

theorem Below.concat (name : Name) (below : Below path names) : Below path (names ++ [name]) := by
  obtain ⟨parts, parsed, start⟩ := below
  exact ⟨parts, parsed, start.trans (prefix_append _ _)⟩

/-- The removal of the directory `inode`, which is under a path, releases exactly its
subtree. -/
structure ReleasesSubtree (db after : Db H) (path : Bytes) (key : DentryKey) (inode : Nat) :
    Prop where
  removed : ∀ other, db.tree.removedWith key inode other = true ->
    after.tree.dentries.get other = none
  outside : ∀ user names target, ¬ Below path names ->
    (after.resolveFrom user after.workspace.rootInode names = .ok target ↔
      db.resolveFrom user db.workspace.rootInode names = .ok target)
  released : ∀ other row, db.tree.inodes.get other = some row -> row.live = true ->
    (after.tree.liveInode other = none ↔
      (row.kind = .directory ∧ other ∈ db.tree.subtree inode) ∨
        db.loses key inode other row = true)
  files : after.tree.liveFiles = db.tree.liveFiles - (db.lostFiles key inode).length
  bytes : after.tree.liveBytes =
    db.tree.liveBytes - (((db.lostFiles key inode).map fun row => row.size).sum : Nat)

/-- No path that is not below the removed one ends in an entry that the removal deletes. -/
def Unshared (db : Db H) (path : Bytes) (key : DentryKey) (inode : Nat) : Prop :=
  ∀ user names name parent, ¬ Below path (names ++ [name]) ->
    db.resolveFrom user db.workspace.rootInode names = .ok parent ->
    db.hasAclPermission user parent .execute = true ->
    db.tree.removedWith key inode (parent, name) = true ->
    db.tree.dentries.get (parent, name) = none

variable {db after : Db H} {env : Env} {path : Bytes} {key : DentryKey} {inode : Nat} {row : Inode}

/-- The tables a recursive removal of a directory leaves. -/
theorem remove_directory_ok (returned : remove env path true db = .ok (nothing, after))
    (resolved : db.resolveParent env.user path = .ok key)
    (entry : db.tree.dentries.get key = some inode)
    (stored : db.tree.inodes.get inode = some row) (directory : row.kind = .directory) :
    after.tree = (db.removeTree env.now key inode).tree.touch env.now key.1 ∧
      after.aclSets = db.aclSets ∧ after.workspace.rootInode = db.workspace.rootInode := by
  obtain ⟨_, _, _, ⟨resolved', _, entry'⟩, stored', _, left⟩ := remove_ok returned
  cases resolved.symm.trans resolved'
  cases entry.symm.trans entry'
  cases stored.symm.trans stored'
  rwa [if_pos ⟨directory, rfl⟩] at left

theorem released_iff
    (tree : after.tree = (db.removeTree env.now key inode).tree.touch env.now key.1)
    (sets : after.aclSets = db.aclSets)
    (root : after.workspace.rootInode = db.workspace.rootInode) :
    ReleasesSubtree db after path key inode ↔
      Unshared db path key inode ∧ db.lostFiles key inode = [] := by
  have entries : ∀ other, after.tree.dentries.get other =
      if db.tree.removedWith key inode other then none else db.tree.dentries.get other := by
    intro other
    rw [tree]
    exact get_deleteDentries _ _ _
  have rows : ∀ other, (after.tree.inodes.get other).map access =
      (db.tree.inodes.get other).map fun row =>
        (row.live && !(row.kind = .directory && (db.tree.subtree inode).contains other),
          row.ownerOid, row.aclSet) := by
    intro other
    rw [tree]
    exact removeTree_inodes other
  have permission : ∀ user other, after.hasAclPermission user other .execute = true ↔
      db.hasAclPermission user other .execute = true ∧ (db.tree.inodes.get other).all (fun row =>
        !(row.kind = .directory && (db.tree.subtree inode).contains other)) = true :=
    fun user other => hasAclPermission_mono sets (rows other)
  constructor
  · rintro ⟨_, outside, _, files, _⟩
    constructor
    · intro user names name parent apart found allowed removed
      by_contra present
      obtain ⟨target, entry⟩ := Option.ne_none_iff_exists'.1 present
      have walked := (outside user _ target apart).2
        (resolveFrom_concat.2 ⟨parent, found, allowed, entry⟩)
      obtain ⟨other, reached, _, left⟩ := resolveFrom_concat.1 walked
      have shorter : ¬ Below path names := fun inside => apart (inside.concat name)
      cases ((outside user _ other shorter).1 reached).symm.trans found
      rw [entries, if_pos removed] at left
      cases left
    · rw [tree, removeTree_counters.1] at files
      apply eq_nil_of_length_eq_zero
      omega
  · rintro ⟨unshared, none_lost⟩
    refine ⟨fun other removed => by rw [entries, if_pos removed], ?_, ?_, ?_, ?_⟩
    · intro user names target apart
      rw [root]
      refine resolveFrom_iff ?_ ?_ (fun names => ¬ Below path names) ?_ ?_ apart target
      · intro _ other left
        rw [entries] at left
        split_ifs at left
        exact left
      · intro other allowed
        exact ((permission user other).1 allowed).1
      · intro names name apart inside
        exact apart (inside.concat name)
      · intro names name parent other apart found allowed entry
        have stays : ¬ db.tree.removedWith key inode (parent, name) = true := fun removed => by
          rw [unshared user names name parent apart found allowed removed] at entry
          cases entry
        refine ⟨(permission user parent).2 ⟨allowed, ?_⟩, by rw [entries, if_neg stays, entry]⟩
        have above : parent ∉ db.tree.subtree inode := fun below =>
          stays (removedWith_iff.2 (.inr below))
        cases db.tree.inodes.get parent with
        | none => rfl
        | some => simp [above]
    · intro other row stored live
      have kept : db.loses key inode other row = false := by
        by_contra lost
        rw [not_eq_false] at lost
        have member : row ∈ db.lostFiles key inode :=
          mem_map_of_mem (f := Prod.snd) (mem_filter.2
            ⟨(db.tree.inodes.mem_entries other row).2 stored, lost⟩)
        rw [none_lost] at member
        cases member
      have left := rows other
      rw [stored, Option.map_some] at left
      obtain ⟨changed, found, same⟩ := Option.map_eq_some_iff.1 left
      have alive : changed.live = _ := congrArg Prod.fst same
      unfold liveInode
      rw [found, kept]
      simp [alive, live]
    · rw [tree, removeTree_counters.1, none_lost]
      simp
    · rw [tree, removeTree_counters.2, none_lost]
      simp

/-- A recursive removal of a directory releases exactly its subtree if and only if no path
from outside uses an entry below the directory, and no file or symbolic link loses its last
entry with the subtree while no handle is on it. -/
theorem recursive_removal_exact_iff (resolved : db.resolveParent env.user path = .ok key)
    (entry : db.tree.dentries.get key = some inode)
    (stored : db.tree.inodes.get inode = some row) (directory : row.kind = .directory)
    (returned : remove env path true db = .ok ((), after)) :
    ReleasesSubtree db after path key inode ↔
      Unshared db path key inode ∧ db.lostFiles key inode = [] := by
  obtain ⟨tree, sets, root⟩ := remove_directory_ok returned resolved entry stored directory
  exact released_iff tree sets root

end

/-- A directory with a file that has a second name outside it. -/
def linkedTrial : Db Verbatim :=
  trial [(owner, .mkdir [47, 100] false), (owner, .write [47, 100, 47, 102] [1, 2, 3]),
    (owner, .link [47, 100, 47, 102] [47, 103])]

theorem dentry_linkedTrial {key : DentryKey} {target : Nat}
    (entry : linkedTrial.tree.dentries.get key = some target) :
    key.1 ≠ 3 ∧ ((key = (1, [100]) ∧ target = 2) ∨ target = 3) := by
  have entries : ∀ found ∈ linkedTrial.tree.dentries.entries,
      found.1.1 ≠ 3 ∧ ((found.1 = (1, [100]) ∧ found.2 = 2) ∨ found.2 = 3) := by decide +kernel
  exact entries _ ((linkedTrial.tree.dentries.mem_entries key target).2 entry)

/-- The directory can be reached under its name only. -/
theorem resolveFrom_linkedTrial {user : User} {names : List Name} {target : Nat}
    (found : linkedTrial.resolveFrom user 1 names = .ok target) :
    (names = [] ∧ target = 1) ∨ (names = [[100]] ∧ target = 2) ∨ target = 3 := by
  induction names using List.reverseRecOn generalizing target with
  | nil => exact .inl ⟨rfl, (Except.ok.inj found).symm⟩
  | append_singleton names name ih =>
    obtain ⟨parent, reached, -, entry⟩ := resolveFrom_concat.1 found
    rcases (dentry_linkedTrial entry).2 with ⟨key, rfl⟩ | rfl
    · obtain ⟨rfl, rfl⟩ := Prod.mk.inj key
      rcases ih reached with ⟨rfl, -⟩ | ⟨-, other⟩ | other
      · exact .inr (.inl ⟨rfl, rfl⟩)
      · cases other
      · cases other
    · exact .inr (.inr rfl)

theorem unshared_linkedTrial : Unshared linkedTrial [47, 100] (1, [100]) 2 := by
  intro user names name parent apart found _ removed
  have path : pathParts [47, 100] = .ok [[100]] := by decide +kernel
  have root : linkedTrial.workspace.rootInode = 1 := by decide +kernel
  have below : linkedTrial.tree.subtree 2 = [3, 2] := by decide +kernel
  rw [root] at found
  rw [Tree.removedWith_iff, below] at removed
  rcases resolveFrom_linkedTrial found with ⟨rfl, rfl⟩ | ⟨rfl, rfl⟩ | rfl
  · obtain key | inside := removed
    · obtain rfl := (Prod.mk.inj key).2
      exact absurd ⟨_, path, prefix_rfl⟩ apart
    · cases inside with
      | tail _ other => cases mem_singleton.1 other
  · exact absurd ⟨_, path, prefix_append _ _⟩ apart
  · by_contra present
    obtain ⟨_, entry⟩ := Option.ne_none_iff_exists'.1 present
    exact (dentry_linkedTrial entry).1 rfl

theorem recursive_removal_exact_iff_linked :
    ReleasesSubtree linkedTrial
      (settle (remove ⟨owner, 6000, 7, ""⟩ [47, 100] true) linkedTrial) [47, 100] (1, [100]) 2 :=
  (recursive_removal_exact_iff (by decide +kernel) (by decide +kernel)
    (Option.some_get (show (linkedTrial.tree.inodes.get 2).isSome by decide +kernel)).symm
    (by decide +kernel) (settle_ok (by decide +kernel))).2
      ⟨unshared_linkedTrial, by decide +kernel⟩

/-- A directory with a file in it. -/
def nestedTrial : Db Verbatim :=
  trial [(owner, .mkdir [47, 100] false), (owner, .write [47, 100, 47, 102] [1, 2, 3])]

/-- The file of a directory that is removed recursively stays live. -/
theorem recursive_removal_keeps_file : Reachable (fun _ _ => True) nestedTrial ∧
    ∃ after, remove ⟨owner, 6000, 7, ""⟩ [47, 100] true nestedTrial = .ok ((), after) ∧
      ¬ ReleasesSubtree nestedTrial after [47, 100] (1, [100]) 2 := by
  refine ⟨reachable_trial _, _, settle_ok (by decide +kernel), fun exact_removal => ?_⟩
  exact absurd exact_removal.files (by decide +kernel)

end VexDB.PgFs
