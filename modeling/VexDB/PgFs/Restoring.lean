import VexDB.PgFs.Captures
import VexDB.PgFs.Reading

/-!
# Exact restores

A restore brings back the rows of a snapshot.  A file that is brought back keeps the
number of its current version unless a version with other content has to be added,
and nothing is added when the row of the current version has been collected.
-/

namespace VexDB.PgFs

open Storage Option PgFs.Tree Table Store Db
open VexFs (Bytes Name Kind DentryKey XattrKey Digest Verbatim)

variable {H : Type} [DecidableEq H] [Digest H]

/-- The row of an inode without its current version. -/
def Inode.unversioned (row : Inode) : Inode := { row with currentVersion := 0 }

/-- The live rows are those of a snapshot, and every file has the bytes of the version that the
snapshot has for it. -/
structure RestoredExactly (db after : Db H) (target : TargetTree) : Prop where
  inodes : ∀ inode, (after.tree.liveInode inode).map Inode.unversioned =
    (target.inodes.get inode).map Inode.unversioned
  dentries : ∀ key, after.tree.dentries.get key = target.dentries.get key
  xattrs : ∀ key, after.tree.xattrs.get key = target.xattrs.get key
  contents : ∀ inode row, after.tree.liveInode inode = some row -> row.kind ≠ .directory ->
    (after.store.versions.get (inode, row.currentVersion)).isSome = true ∧
      ∃ saved bytes, target.inodes.get inode = some saved ∧
        db.store.readVersionContent inode saved.currentVersion = .ok bytes ∧
        after.store.readVersionContent inode row.currentVersion = .ok bytes

/-- The current version of every file of a snapshot is there, and if it has the size and the
digest of the version of the snapshot it has the same bytes. -/
def Db.Revivable (db : Db H) (target : TargetTree) : Prop :=
  ∀ inode saved live, target.inodes.get inode = some saved -> saved.kind ≠ .directory ->
    db.tree.inodes.get inode = some live ->
      ∃ current, db.store.versions.get (inode, live.currentVersion) = some current ∧
        ∀ source, db.store.versions.get (inode, saved.currentVersion) = some source ->
          current.size = source.size ∧ current.checksum = source.checksum ->
            db.store.readVersionContent inode live.currentVersion =
              db.store.readVersionContent inode saved.currentVersion

/-! ## The rows -/

section

variable {db : Db H} {env : Env} {target : TargetTree} {inode : Nat}
  {entry : (Nat × Nat) × Version H}

/-- The state in which a restore looks for versions to add. -/
def Db.revived (db : Db H) (target : TargetTree) : Db H :=
  { db.advanceHead with tree := db.tree.restored target }

/-- The version that a restore adds for an inode. -/
def Db.addition (db : Db H) (env : Env) (target : TargetTree) (inode : Nat) :
    Option ((Nat × Nat) × Version H) :=
  (db.revived target).addedVersion env (db.workspace.headCommit + 1) target inode

section

omit [Digest H]

theorem get_restored_versions (key : Nat × Nat) :
    (db.restored env target).store.versions.get key =
      (((db.addition env target key.1).filter fun entry => entry.1 = key).map Prod.snd).or
        (db.store.versions.get key) :=
  get_addRestored_versions key

theorem get_restored_of_stored (stored : db.store.versions.get key = some version) :
    (db.restored env target).store.versions.get key = some version :=
  get_addRestored_of_some stored

/-- The row of an inode after a restore. -/
theorem get_restored_rows (inode : Nat) :
    (db.restored env target).tree.inodes.get inode = (db.tree.inodes.get inode).map fun row =>
      ((target.inodes.get inode).map fun saved =>
        { saved with
          live := true
          currentVersion := ((db.addition env target inode).map fun entry => entry.1.2).getD
            row.currentVersion }).getD { row with live := false } := by
  have updated : (db.restored env target).tree.inodes.get inode =
      (((db.tree.restored target).inodes.get inode).map fun row =>
        (((db.addition env target inode).map fun entry =>
          { row with currentVersion := entry.1.2 })).getD row) := by
    refine (get_updateInodes _ _ _).trans ?_
    rw [find_restoredVersions]
    rfl
  rw [updated, get_restored_inodes, map_map]
  congr 1
  funext row
  rw [Function.comp_apply]
  cases found : target.inodes.get inode with
  | none =>
    have nothing : db.addition env target inode = none := by
      unfold addition addedVersion
      rw [found, bind_none]
    rw [nothing]
    rfl
  | some =>
    cases db.addition env target inode with
    | none => rfl
    | some => rfl

theorem liveInode_restored (inode : Nat) :
    (db.restored env target).tree.liveInode inode =
      (db.tree.inodes.get inode).bind fun row => (target.inodes.get inode).map fun saved =>
        { saved with
          live := true
          currentVersion := ((db.addition env target inode).map fun entry => entry.1.2).getD
            row.currentVersion } := by
  unfold liveInode
  rw [get_restored_rows]
  cases db.tree.inodes.get inode with
  | none => rfl
  | some =>
    cases target.inodes.get inode with
    | none => rfl
    | some => rfl

end

omit [DecidableEq H] [Digest H] in
theorem Tree.get_replaced_xattrs (tree : Tree) (rows : Table XattrKey Xattr) (key : XattrKey) :
    ((tree.deleteXattrs fun _ => true).insertXattrs rows).xattrs.get key = rows.get key := by
  unfold insertXattrs deleteXattrs
  dsimp only
  rw [get_setAll_entries, get_filter_of_dropped _ fun _ => rfl, or_none]

omit [Digest H] in
/-- A version is added for a file if its current version is there and has other content. -/
theorem addition_eq_some
    (found : target.inodes.get inode = some saved) (file : saved.kind ≠ .directory)
    (row : db.tree.inodes.get inode = some live) :
    db.addition env target inode = some entry ↔
      ∃ source current, db.store.versions.get (inode, saved.currentVersion) = some source ∧
        db.store.versions.get (inode, live.currentVersion) = some current ∧
        ¬ (current.size = source.size ∧ current.checksum = source.checksum) ∧
        entry = ((inode, db.store.nextVersion inode), ⟨db.workspace.headCommit + 1, none,
          some (source.source.getD saved.currentVersion), source.size, source.checksum,
          env.now⟩) := by
  have revived : (db.revived target).tree.inodes.get inode = some (live.revive saved) := by
    show (db.tree.restored target).inodes.get inode = _
    rw [get_restored_inodes, row, found]
    rfl
  unfold addition addedVersion
  rw [found, bind_some, restoredVersion_eq_some]
  constructor
  · rintro ⟨_, _, source, current, stored, sourceStored, currentStored, differs, rfl⟩
    cases revived.symm.trans stored
    exact ⟨source, current, sourceStored, currentStored, differs, rfl⟩
  · rintro ⟨source, current, sourceStored, currentStored, differs, rfl⟩
    exact ⟨file, _, source, current, revived, sourceStored, currentStored, differs, rfl⟩

/-! ## The bytes -/

/-- Versions with the same storage have the same bytes before and after a restore. -/
theorem read_restored (sound : db.Sound)
    (stored : db.store.versions.get (inode, left) = some before)
    (kept : (db.restored env target).store.versions.get (inode, right) = some later)
    (storage : (db.restored env target).store.storageOf inode later =
      db.store.storageOf inode before) :
    (db.restored env target).store.readVersionContent inode right =
      db.store.readVersionContent inode left := by
  have restored := sound.restored env target
  obtain ⟨_, at_, read⟩ := readVersionContent_eq sound.store sound.versions stored
  obtain ⟨_, otherAt, otherRead⟩ :=
    readVersionContent_eq restored.store restored.versions kept
  rw [storage, at_] at otherAt
  cases otherAt
  rw [otherRead, read]
  rfl

theorem read_restored_of_stored (sound : db.Sound)
    (stored : db.store.versions.get (inode, number) = some version) :
    (db.restored env target).store.readVersionContent inode number =
      db.store.readVersionContent inode number := by
  refine read_restored sound stored (get_restored_of_stored stored) ?_
  unfold storageOf
  cases sound.versions inode number version stored with
  | canonical _ _ _ first => rw [first]
  | copy origin source _ of sourceStored =>
    rw [of]
    dsimp only
    rw [get_restored_of_stored sourceStored, sourceStored]

/-- The version that a restore adds has the bytes of the version of the snapshot. -/
theorem read_addition (sound : db.Sound)
    (found : target.inodes.get inode = some saved) (file : saved.kind ≠ .directory)
    (row : db.tree.inodes.get inode = some live)
    (added : db.addition env target inode = some entry) :
    (db.restored env target).store.versions.get (inode, entry.1.2) = some entry.2 ∧
      (db.restored env target).store.readVersionContent inode entry.1.2 =
        db.store.readVersionContent inode saved.currentVersion := by
  obtain ⟨source, _, sourceStored, _, _, rfl⟩ := (addition_eq_some found file row).1 added
  have stored : ∀ {entry : (Nat × Nat) × Version H}, db.addition env target inode = some entry ->
      entry.1.1 = inode -> (db.restored env target).store.versions.get entry.1 = some entry.2 := by
    rintro _ found rfl
    rw [get_restored_versions, found, filter_some, if_pos (by simp)]
    rfl
  refine ⟨stored added rfl, read_restored sound sourceStored (stored added rfl) ?_⟩
  unfold storageOf
  cases sound.versions inode saved.currentVersion source sourceStored with
  | canonical _ _ _ first =>
    rw [first]
    dsimp only
    rw [getD_none, get_restored_of_stored sourceStored, bind_some]
  | copy origin earlier _ of earlierStored =>
    rw [of]
    dsimp only
    rw [getD_some, get_restored_of_stored earlierStored, earlierStored]

variable (env) in
/-- The version a file is left at holds the bytes of the version of the snapshot exactly if the
version it was at is there and differs whenever it has other bytes. -/
theorem content_restored_iff (sound : db.Sound)
    (found : target.inodes.get inode = some saved) (file : saved.kind ≠ .directory)
    (row : db.tree.inodes.get inode = some live)
    (backed : db.store.versions.get (inode, saved.currentVersion) = some source)
    (left : number = ((db.addition env target inode).map fun entry => entry.1.2).getD
      live.currentVersion) :
    ((db.restored env target).store.versions.get (inode, number)).isSome = true ∧
        (db.restored env target).store.readVersionContent inode number =
          db.store.readVersionContent inode saved.currentVersion ↔
      ∃ current, db.store.versions.get (inode, live.currentVersion) = some current ∧
        ∀ source, db.store.versions.get (inode, saved.currentVersion) = some source ->
          current.size = source.size ∧ current.checksum = source.checksum ->
            db.store.readVersionContent inode live.currentVersion =
              db.store.readVersionContent inode saved.currentVersion := by
  cases added : db.addition env target inode with
  | some entry =>
    rw [added] at left
    obtain rfl : number = entry.1.2 := left
    obtain ⟨stored, read⟩ := read_addition sound found file row added
    obtain ⟨_, current, sourceStored, currentStored, differs, _⟩ :=
      (addition_eq_some found file row).1 added
    refine ⟨fun _ => ⟨current, currentStored, fun other otherStored same => ?_⟩,
      fun _ => ⟨by rw [stored]; rfl, read⟩⟩
    cases sourceStored.symm.trans otherStored
    exact absurd same differs
  | none =>
    rw [added] at left
    obtain rfl : _ = live.currentVersion := left
    have unchanged : (db.restored env target).store.versions.get (inode, live.currentVersion) =
        db.store.versions.get (inode, live.currentVersion) := by
      rw [get_restored_versions, added]
      rfl
    rw [unchanged]
    constructor
    · rintro ⟨stored, read⟩
      obtain ⟨current, currentStored⟩ := isSome_iff_exists.1 stored
      rw [read_restored_of_stored sound currentStored] at read
      exact ⟨current, currentStored, fun _ _ _ => read⟩
    · rintro ⟨current, currentStored, equal⟩
      have same : current.size = source.size ∧ current.checksum = source.checksum := by
        by_contra differs
        have entry : db.addition env target inode = some _ := (addition_eq_some found file row).2
          ⟨source, current, backed, currentStored, differs, rfl⟩
        rw [added] at entry
        cases entry
      refine ⟨by rw [currentStored]; rfl, ?_⟩
      rw [read_restored_of_stored sound currentStored]
      exact equal source backed same

/-! ## The call -/

variable (env) in
theorem restoredExactly_iff (sound : db.Sound) (backed : db.missesVersion target = false)
    (known : ∀ inode saved, target.inodes.get inode = some saved ->
      (db.tree.inodes.get inode).isSome = true ∧ saved.live = true) :
    RestoredExactly db (db.restored env target) target ↔ db.Revivable target := by
  have source : ∀ inode saved, target.inodes.get inode = some saved -> saved.kind ≠ .directory ->
      ∃ version, db.store.versions.get (inode, saved.currentVersion) = some version := by
    intro inode saved found file
    have present := List.any_eq_false.1 backed (inode, saved) ((mem_entries _ _ _).2 found)
    simp only [ne_eq, file, not_false_eq_true, decide_true, Bool.true_and,
      isNone_iff_eq_none] at present
    exact ne_none_iff_exists'.1 present
  constructor
  · intro exact inode saved live found file row
    obtain ⟨version, stored⟩ := source inode saved found file
    refine (content_restored_iff env sound found file row stored rfl).1 ?_
    have shown : (db.restored env target).tree.liveInode inode = _ := liveInode_restored inode
    rw [row, found] at shown
    obtain ⟨present, _, _, otherFound, before, later⟩ :=
      exact.contents inode _ shown file
    cases found.symm.trans otherFound
    exact ⟨present, later.trans before.symm⟩
  · intro revivable
    refine ⟨fun inode => ?_, fun key => ?_, fun key => ?_, fun inode row alive file => ?_⟩
    · rw [liveInode_restored]
      cases found : target.inodes.get inode with
      | none => simp
      | some saved =>
        obtain ⟨present, live⟩ := known inode saved found
        obtain ⟨_, stored⟩ := isSome_iff_exists.1 present
        rw [stored]
        simp [Inode.unversioned, live]
    · show ((db.revived target).addRestored env (db.workspace.headCommit + 1)
        target).tree.dentries.get key = _
      unfold addRestored
      dsimp only
      rw [updateInodes_dentries]
      exact get_restored_dentries key
    · exact get_replaced_xattrs _ _ key
    · rw [liveInode_restored] at alive
      obtain ⟨live, stored, shown⟩ := bind_eq_some_iff.1 alive
      obtain ⟨saved, found, rfl⟩ := map_eq_some_iff.1 shown
      obtain ⟨_, backing⟩ := source inode saved found file
      obtain ⟨present, same⟩ := (content_restored_iff env sound found file stored backing rfl).2
        (revivable inode saved live found file stored)
      obtain ⟨_, _, read⟩ := readVersionContent_eq sound.store sound.versions backing
      exact ⟨present, saved, _, found, read, same.trans read⟩

omit [DecidableEq H] [Digest H] in
/-- The inodes of a snapshot have rows. -/
theorem target_known {head commit : Nat} {tree : Tree} {history : History}
    (faithful : Faithful tree history head) {saved : Inode}
    (found : (history.target commit).inodes.get inode = some saved) :
    (tree.inodes.get inode).isSome = true ∧ saved.live = true := by
  have shown : (history.inodeStates.view Inode.shown commit).get inode = some saved := found
  rw [get_view] at shown
  obtain ⟨row, latest, shows⟩ := bind_eq_some_iff.1 shown
  obtain ⟨time, _, stored, _⟩ := (get_latest _ _ _ _).1 latest
  unfold Inode.shown at shows
  split_ifs at shows with live
  obtain rfl := some.inj shows
  exact ⟨faithful.known inode time row stored, live⟩

/-- A restore is exact if and only if the current version of every file of the snapshot is still
stored, and has the bytes of the version of the snapshot when their sizes and digests agree. -/
theorem restore_exact_iff {name : String} {snapshot : Snapshot} {expectedHead commit : Nat}
    {safety caller : Option String} {after : Db H} (reached : Reachable (fun _ _ => True) db)
    (stored : db.history.snapshots.get name = some snapshot)
    (returned : snapshotRestore env name expectedHead safety caller db = .ok (commit, after)) :
    RestoredExactly db after (db.history.target snapshot.commit) ↔
      db.Revivable (db.history.target snapshot.commit) := by
  have settled := reached.settled
  obtain ⟨_, restores⟩ := snapshotRestore_ok settled.unbatched returned
  obtain ⟨_, found, _, rfl⟩ := restores.found
  cases stored.symm.trans found
  have safe := settled.sound.safeguarded env safety
  rw [restores.result]
  -- The safety snapshot changes neither the versions nor the rows of the inodes.
  cases safety with
  | none => exact restoredExactly_iff env safe restores.backed fun _ _ =>
    target_known settled.sound.history
  | some =>
    have exactly := restoredExactly_iff env safe restores.backed fun _ _ =>
      target_known settled.sound.history
    exact ⟨fun ⟨inodes, dentries, xattrs, contents⟩ =>
        exactly.1 ⟨inodes, dentries, xattrs, contents⟩,
      fun revivable =>
        have ⟨inodes, dentries, xattrs, contents⟩ := exactly.2 revivable
        ⟨inodes, dentries, xattrs, contents⟩⟩

end

/-- The owner writes a file, takes a snapshot and writes the file again. -/
def savedTrial (later : List (User × Op)) : Db Verbatim :=
  trial ([(owner, .write [47, 102] [1]), (owner, .snapshotCreate "s" none true .manual),
    (owner, .write [47, 102] [2])] ++ later)

theorem reachable_savedTrial (later : List (User × Op)) :
    Reachable (fun _ _ => True) (savedTrial later) := reachable_trial _

/-- Restore the snapshot at a head commit. -/
def restoreSaved (head : Nat) : Sql Verbatim Unit :=
  Tx.discard (snapshotRestore ⟨owner, 5000, 7, "request"⟩ "s" head none none)

/-- The snapshot of the file at its first version. -/
def savedSnapshot : Snapshot := ⟨1, .manual, 2, 5000⟩

theorem restore_exact_iff_written :
    RestoredExactly (savedTrial []) (settle (restoreSaved 3) (savedTrial []))
      ((savedTrial []).history.target 2) := by
  have stored : (savedTrial []).history.snapshots.get "s" = some savedSnapshot := by
    decide +kernel
  have restored : restoreSaved 3 (savedTrial []) =
      .ok ((), settle (restoreSaved 3) (savedTrial [])) := settle_ok (by decide +kernel)
  obtain ⟨_, returned⟩ := Tx.discard_ok.1 restored
  refine (restore_exact_iff (reachable_savedTrial []) stored returned).2 ?_
  have differs : ((savedTrial []).history.target 2).inodes.entries.all (fun entry =>
      entry.2.kind = .directory || ((savedTrial []).tree.inodes.get entry.1).all fun live =>
        ((savedTrial []).store.versions.get (entry.1, live.currentVersion)).any fun current =>
          ((savedTrial []).store.versions.get (entry.1, entry.2.currentVersion)).all fun source =>
            current.checksum ≠ source.checksum) = true := by
    decide +kernel
  intro inode saved live found file row
  have entry := List.all_eq_true.1 differs (inode, saved) ((mem_entries _ _ _).2 found)
  rw [row] at entry
  simp only [file, decide_false, Bool.false_or, all_some, any_eq_true] at entry
  obtain ⟨current, currentStored, other⟩ := entry
  refine ⟨current, currentStored, fun source sourceStored same => ?_⟩
  rw [sourceStored] at other
  exact absurd same.2 (by simpa using other)

/-- A file that was removed and whose last version was collected comes back without content. -/
theorem restore_loses_content :
    ¬ ∀ (db after : Db Verbatim) (env : Env) (name : String) (snapshot : Snapshot)
      (expectedHead commit : Nat) (safety caller : Option String),
      Reachable (fun _ _ => True) db -> db.history.snapshots.get name = some snapshot ->
      snapshotRestore env name expectedHead safety caller db = .ok (commit, after) ->
        RestoredExactly db after (db.history.target snapshot.commit) := by
  intro claimed
  have collected : ∃ db : Db Verbatim, db = savedTrial [(owner, .remove [47, 102] false),
      (owner, .retentionSet 0 0), (owner, .gc 1)] := ⟨_, rfl⟩
  obtain ⟨db, same⟩ := collected
  have restored : restoreSaved 4 db = .ok ((), settle (restoreSaved 4) db) :=
    settle_ok (by rw [same]; decide +kernel)
  obtain ⟨_, returned⟩ := Tx.discard_ok.1 restored
  have exactly := claimed db _ _ "s" savedSnapshot 4 _ none none (same ▸ reachable_savedTrial _)
    (by rw [same]; decide +kernel) returned
  have lost : ((settle (restoreSaved 4) db).tree.liveInode 2).any (fun row =>
      row.kind ≠ .directory && ((settle (restoreSaved 4) db).store.versions.get
        (2, row.currentVersion)).isNone) = true := by
    rw [same]
    decide +kernel
  obtain ⟨row, alive, missing⟩ := (any_eq_true _ _).1 lost
  rw [Bool.and_eq_true, decide_eq_true_iff, isNone_iff_eq_none] at missing
  have present := (exactly.contents 2 row alive missing.1).1
  rw [missing.2] at present
  cases present

end VexDB.PgFs
