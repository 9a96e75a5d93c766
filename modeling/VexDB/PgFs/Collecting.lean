import VexDB.PgFs.Captures
import VexDB.Storage.Ranking

/-!
# Collections end

What the retention policy keeps, apart from what snapshots of the head commit show,
does not change under collections, and after the first of them those snapshots show
nothing else than the live rows.  So collections one after another delete exactly the
versions that are not kept in this sense, unless one of them would delete the base of
what is staged for a handle: then it fails, and so does every further one.
-/

namespace VexDB.PgFs

open Storage List Prod Tx Db Store Table
open VexFs (Bytes Name Kind DentryKey XattrKey Digest Verbatim)
open Table (mem_entries)

variable {H : Type} {row : Version H} {manifest : Nat} {key : Nat × Nat}

namespace Db

/-! ## What is kept -/

/-- The versions that the number of versions to keep protects. -/
def ranked (db : Db H) (inode number : Nat) : Bool :=
  (db.store.versions.get (inode, number)).isSome &&
    decide (0 < db.workspace.retentionKeepVersions) &&
    decide (db.versionRank inode number <= db.workspace.retentionKeepVersions)

/-- The versions that the number of days to keep protects. -/
def recent (db : Db H) (now inode number : Nat) : Bool :=
  (db.store.versions.get (inode, number)).any fun version =>
    decide (0 < db.workspace.retentionKeepDays) &&
      decide (now <= version.createdAt + db.workspace.retentionKeepDays * dayTime)

/-- Some snapshot of a commit before the head shows an inode that is not a directory at a
version. -/
def earlierSnapshotAt (db : Db H) (inode number : Nat) : Bool :=
  decide (0 < number) && db.history.snapshots.entries.any fun snapshot =>
    decide (snapshot.2.commit < db.workspace.headCommit) &&
      ((db.history.snapshotInodes snapshot.2.commit).get inode).any fun row =>
        row.kind ≠ .directory && row.currentVersion = number

/-- `direct_keep` without the snapshots of the head commit. -/
def lastingDirect (db : Db H) (now inode number : Nat) : Bool :=
  db.currentAt inode number || db.ranked inode number || db.recent now inode number ||
    db.earlierSnapshotAt inode number

/-- `retention_keep_versions` without the snapshots of the head commit. -/
def lastingKeep (db : Db H) (now : Nat) (key : Nat × Nat) : Bool :=
  db.lastingDirect now key.1 key.2 ||
    db.store.versions.entries.any fun entry =>
      entry.1.1 = key.1 && entry.2.source = some key.2 && db.lastingDirect now key.1 entry.1.2

variable (db : Db H)

theorem directKeep_eq (now inode number : Nat) :
    db.directKeep now inode number = (db.currentAt inode number || db.ranked inode number ||
      db.recent now inode number || db.snapshotAt inode number) := rfl

variable {db} {now inode number : Nat}

theorem snapshotAt_iff : db.snapshotAt inode number = true ↔
    0 < number ∧ ∃ name snapshot row, db.history.snapshots.get name = some snapshot ∧
      (db.history.snapshotInodes snapshot.commit).get inode = some row ∧
      row.kind ≠ .directory ∧ row.currentVersion = number := by
  simp only [snapshotAt, Bool.and_eq_true, decide_eq_true_iff, any_eq_true, Prod.exists,
    mem_entries, Option.any_eq_true]
  refine and_congr Iff.rfl (exists_congr fun name => exists_congr fun snapshot => ?_)
  exact ⟨fun ⟨stored, row, found, fits⟩ => ⟨row, stored, found, fits⟩,
    fun ⟨row, stored, found, fits⟩ => ⟨stored, row, found, fits⟩⟩

theorem earlierSnapshotAt_iff : db.earlierSnapshotAt inode number = true ↔
    0 < number ∧ ∃ name snapshot row, db.history.snapshots.get name = some snapshot ∧
      snapshot.commit < db.workspace.headCommit ∧
      (db.history.snapshotInodes snapshot.commit).get inode = some row ∧
      row.kind ≠ .directory ∧ row.currentVersion = number := by
  simp only [earlierSnapshotAt, Bool.and_eq_true, decide_eq_true_iff, any_eq_true,
    Prod.exists, mem_entries, Option.any_eq_true]
  refine and_congr Iff.rfl (exists_congr fun name => exists_congr fun snapshot => ?_)
  exact ⟨fun ⟨stored, earlier, row, found, fits⟩ => ⟨row, stored, earlier, found, fits⟩,
    fun ⟨row, stored, earlier, found, fits⟩ => ⟨stored, earlier, row, found, fits⟩⟩

theorem directKeep_of_lasting (lasting : db.lastingDirect now inode number = true) :
    db.directKeep now inode number = true := by
  rw [directKeep_eq]
  simp only [lastingDirect, Bool.or_eq_true] at lasting ⊢
  refine lasting.imp_right fun earlier => ?_
  obtain ⟨positive, name, snapshot, row, stored, _, found⟩ := earlierSnapshotAt_iff.1 earlier
  exact snapshotAt_iff.2 ⟨positive, name, snapshot, row, stored, found⟩

/-- The two ways in which a version is kept. -/
theorem keeps_iff (direct : Nat -> Nat -> Bool) :
    (direct key.1 key.2 || db.store.versions.entries.any fun entry =>
        entry.1.1 = key.1 && entry.2.source = some key.2 && direct key.1 entry.1.2) = true ↔
      direct key.1 key.2 = true ∨ ∃ other row, db.store.versions.get (key.1, other) = some row ∧
        row.source = some key.2 ∧ direct key.1 other = true := by
  simp only [Bool.or_eq_true, any_eq_true, Prod.exists, mem_entries, Bool.and_eq_true,
    decide_eq_true_iff]
  refine or_congr Iff.rfl ⟨?_, ?_⟩
  · rintro ⟨_, other, row, stored, ⟨rfl, source⟩, kept⟩
    exact ⟨other, row, stored, source, kept⟩
  · rintro ⟨other, row, stored, source, kept⟩
    exact ⟨key.1, other, row, stored, ⟨rfl, source⟩, kept⟩

theorem keep_of_lasting (lasting : db.lastingKeep now key = true) :
    db.retentionKeepVersions now key = true :=
  (keeps_iff (db.directKeep now)).2 (((keeps_iff (db.lastingDirect now)).1 lasting).imp
    directKeep_of_lasting fun ⟨other, row, stored, source, kept⟩ =>
      ⟨other, row, stored, source, directKeep_of_lasting kept⟩)

/-- The head commit shows the live rows. -/
def Current (db : Db H) : Prop := db.history.Shows db.workspace.headCommit db.tree

/-- When the head shows the live rows, its snapshots keep nothing more. -/
theorem directKeep_eq_lasting (current : db.Current)
    (bounded : ∀ name row, db.history.snapshots.get name = some row ->
      row.commit <= db.workspace.headCommit) :
    db.directKeep now inode number = db.lastingDirect now inode number := by
  refine Bool.eq_iff_iff.2 ⟨fun direct => ?_, directKeep_of_lasting⟩
  rw [directKeep_eq] at direct
  simp only [lastingDirect, Bool.or_eq_true] at direct ⊢
  rcases direct with kept | shown
  · exact .inl kept
  · obtain ⟨positive, name, snapshot, row, stored, found, fits⟩ := snapshotAt_iff.1 shown
    rcases Nat.lt_or_ge snapshot.commit db.workspace.headCommit with earlier | atHead
    · exact .inr (earlierSnapshotAt_iff.2
        ⟨positive, name, snapshot, row, stored, earlier, found, fits⟩)
    · rw [Nat.le_antisymm (bounded name snapshot stored) atHead, current.inodes] at found
      obtain ⟨_, alive, shows⟩ := Option.bind_eq_some_iff.1 found
      unfold Inode.shown at shows
      split_ifs at shows with isLive
      cases shows
      unfold currentAt
      rw [alive]
      simp [positive, Inode.counted, isLive, fits.1, fits.2]

theorem keep_eq_lasting (current : db.Current)
    (bounded : ∀ name row, db.history.snapshots.get name = some row ->
      row.commit <= db.workspace.headCommit) (key : Nat × Nat) :
    db.retentionKeepVersions now key = db.lastingKeep now key := by
  unfold retentionKeepVersions lastingKeep
  simp only [directKeep_eq_lasting current bounded]

end Db

/-! ## One collection -/

section

variable {db : Db H} {now batch inode number : Nat}

/-- A version that is not collected stays as it is. -/
theorem get_collected_versions (key : Nat × Nat) :
    (db.collected now batch).store.versions.get key =
      if key ∈ (db.collectable now batch).map fst then none
      else db.store.versions.get key :=
  get_collect_versions key

theorem collected_of_kept (kept : db.retentionKeepVersions now key = true) :
    (db.collected now batch).store.versions.get key = db.store.versions.get key := by
  rw [get_collected_versions, if_neg]
  intro member
  obtain ⟨_, candidate, rfl⟩ := mem_map.1 member
  rw [(mem_collectable candidate).2.1] at kept
  cases kept

theorem get_of_collected (stored : (db.collected now batch).store.versions.get key = some row) :
    db.store.versions.get key = some row := by
  rw [get_collected_versions] at stored
  split_ifs at stored
  exact stored

theorem kept_of_direct (direct : db.directKeep now inode number = true) :
    db.retentionKeepVersions now (inode, number) = true :=
  (keeps_iff (db.directKeep now)).2 (.inl direct)

/-- The numbers of the versions of an inode. -/
def Db.numbers (db : Db H) (inode : Nat) : Finset Nat :=
  ((db.store.versions.keys.filter fun key => key.1 = inode).map Prod.snd).toFinset

theorem Db.mem_numbers :
    number ∈ db.numbers inode ↔ (db.store.versions.get (inode, number)).isSome = true := by
  rw [numbers, mem_toFinset, Option.isSome_iff_exists, <- Table.mem_keys]
  simp only [mem_map, mem_filter, decide_eq_true_iff, Prod.exists]
  constructor
  · rintro ⟨_, _, ⟨member, rfl⟩, rfl⟩
    exact member
  · exact fun member => ⟨inode, number, ⟨member, rfl⟩, rfl⟩

theorem Db.versionRank_eq : db.versionRank inode number = rankIn (db.numbers inode) number := by
  have distinct : ((db.store.versions.keys.filter fun key => key.1 = inode).map
      snd).Nodup := by
    refine (db.store.versions.nodup.filter _).map_on fun left leftIn right rightIn same => ?_
    have leftAt := of_decide_eq_true (mem_filter.1 leftIn).2
    have rightAt := of_decide_eq_true (mem_filter.1 rightIn).2
    exact Prod.ext (leftAt.trans rightAt.symm) same
  have above : ∀ list : List Nat, list.toFinset.filter (number <= ·) =
      (list.filter fun other => decide (number <= other)).toFinset := by
    intro _
    ext other
    simp
  rw [rankIn, numbers, above, toFinset_card_of_nodup (distinct.filter _), filter_map,
    length_map, filter_filter]
  unfold versionRank
  congr 2
  funext key
  exact Bool.and_comm _ _

theorem Db.ranked_iff : db.ranked inode number = true ↔
    number ∈ db.numbers inode ∧ 0 < db.workspace.retentionKeepVersions ∧
      rankIn (db.numbers inode) number <= db.workspace.retentionKeepVersions := by
  rw [ranked, versionRank_eq, mem_numbers]
  simp only [Bool.and_eq_true, decide_eq_true_iff, and_assoc]

/-- Collections leave the first versions of every inode first. -/
theorem ranked_collected :
    (db.collected now batch).ranked inode number = db.ranked inode number := by
  have subset : (db.collected now batch).numbers inode ⊆ db.numbers inode := by
    intro other member
    obtain ⟨_, stored⟩ := Option.isSome_iff_exists.1 (mem_numbers.1 member)
    exact mem_numbers.2 (by rw [get_of_collected stored]; rfl)
  have top : 0 < db.workspace.retentionKeepVersions -> ∀ other ∈ db.numbers inode,
      rankIn (db.numbers inode) other <= db.workspace.retentionKeepVersions ->
        other ∈ (db.collected now batch).numbers inode := by
    intro positive other member within
    have ranked := ranked_iff.2 ⟨member, positive, within⟩
    have direct : db.directKeep now inode other = true := by
      rw [directKeep_eq, ranked]
      simp
    rw [mem_numbers, collected_of_kept (kept_of_direct direct)]
    exact mem_numbers.1 member
  refine Bool.eq_iff_iff.2 ?_
  rw [ranked_iff, ranked_iff]
  constructor
  · rintro ⟨member, positive, within⟩
    exact ⟨subset member, positive, (rankIn_le_iff subset (top positive) member).1 within⟩
  · rintro ⟨member, positive, within⟩
    have stays := top positive number member within
    exact ⟨stays, positive, (rankIn_le_iff subset (top positive) stays).2 within⟩

theorem recent_collected :
    (db.collected now batch).recent now inode number = db.recent now inode number := by
  refine Bool.eq_iff_iff.2 ?_
  simp only [recent, Option.any_eq_true]
  constructor
  · rintro ⟨row, stored, young⟩
    exact ⟨row, get_of_collected stored, young⟩
  · rintro ⟨row, stored, young⟩
    refine ⟨row, ?_, young⟩
    have direct : db.directKeep now inode number = true := by
      have recent : db.recent now inode number = true := by
        rw [recent, stored, Option.any_some]
        exact young
      rw [directKeep_eq, recent]
      simp
    rw [collected_of_kept (kept_of_direct direct), stored]

theorem currentAt_collected :
    (db.collected now batch).currentAt inode number = db.currentAt inode number := rfl

theorem snapshots_collected : (db.collected now batch).history.snapshots = db.history.snapshots :=
  compacted_snapshots _

/-- A collection keeps what earlier commits show. -/
theorem showsSame_collected {name : String} {row : Snapshot}
    (stored : db.history.snapshots.get name = some row)
    (earlier : row.commit < db.workspace.headCommit) :
    db.history.ShowsSame (db.collected now batch).history row.commit :=
  (db.history.showsSame_record db.tree earlier).trans
    (showsSame_compacted (db.swept now batch) (metadataFloor_le stored))

theorem earlierSnapshotAt_collected :
    (db.collected now batch).earlierSnapshotAt inode number =
      db.earlierSnapshotAt inode number := by
  refine Bool.eq_iff_iff.2 ?_
  rw [earlierSnapshotAt_iff, earlierSnapshotAt_iff, snapshots_collected]
  refine and_congr Iff.rfl (exists_congr fun name => exists_congr fun snapshot =>
    exists_congr fun row => and_congr_right fun stored => and_congr_right fun earlier => ?_)
  rw [(showsSame_collected stored earlier).inodes]

theorem lastingDirect_collected :
    (db.collected now batch).lastingDirect now inode number =
      db.lastingDirect now inode number := by
  unfold lastingDirect
  rw [ranked_collected, recent_collected, earlierSnapshotAt_collected, currentAt_collected]

/-- Collections do not change what is kept. -/
theorem lastingKeep_collected (key : Nat × Nat) :
    (db.collected now batch).lastingKeep now key = db.lastingKeep now key := by
  unfold lastingKeep
  rw [Bool.eq_iff_iff, keeps_iff (lastingDirect _ now), keeps_iff (db.lastingDirect now)]
  simp only [lastingDirect_collected]
  refine or_congr Iff.rfl ⟨?_, ?_⟩
  · rintro ⟨other, row, stored, source, kept⟩
    exact ⟨other, row, get_of_collected stored, source, kept⟩
  · rintro ⟨other, row, stored, source, kept⟩
    refine ⟨other, row, ?_, source, kept⟩
    rw [collected_of_kept (kept_of_direct (directKeep_of_lasting kept)), stored]

/-- After a collection the head shows the live rows. -/
theorem current_collected [Digest H] (sound : db.Sound) : (db.collected now batch).Current := by
  have shows : (db.swept now batch).history.Shows db.workspace.headCommit db.tree :=
    sound.history.shows_record
  have floor : (db.swept now batch).metadataFloor <= db.workspace.headCommit := by
    rcases metadataFloor_cases (db.swept now batch) with atHead | ⟨name, row, stored, same⟩
    · exact atHead.le
    · exact same ▸ (sound.history.snapshots name row stored).1
  obtain ⟨inodes, dentries, xattrs⟩ := (showsSame_compacted _ floor).shows shows
  exact ⟨inodes, dentries, xattrs⟩

/-- After a collection exactly what lasts is kept. -/
theorem keep_collected [Digest H] (sound : db.Sound) (key : Nat × Nat) :
    (db.collected now batch).retentionKeepVersions now key = db.lastingKeep now key := by
  rw [keep_eq_lasting (current_collected sound) fun name row stored =>
    ((sound.collected now batch).history.snapshots name row stored).1, lastingKeep_collected]

/-! ## How many versions go -/

/-- Some version is collected when some version is not kept. -/
theorem collectable_ne_nil (versioned : db.store.Versioned) (positive : 0 < batch)
    (stored : db.store.versions.get key = some row)
    (unkept : db.retentionKeepVersions now key = false) : db.collectable now batch ≠ [] := by
  have found : ∃ entry ∈ db.store.versions.entries, (!db.retentionKeepVersions now entry.1 &&
        (entry.2.source.isSome || !db.store.aliased entry.1)) = true := by
    by_cases direct : (row.source.isSome || !db.store.aliased key) = true
    · exact ⟨(key, row), (mem_entries _ _ _).2 stored, by simp [unkept, direct]⟩
    · -- The version has an alias, which is not kept either and can go first.
      have aliased : db.store.aliased key = true := by
        rw [Bool.or_eq_true, not_or, Bool.not_eq_true', Bool.not_eq_false] at direct
        exact direct.2
      obtain ⟨⟨⟨_, other⟩, copy⟩, member, same⟩ := any_eq_true.1 aliased
      simp only [Bool.and_eq_true, decide_eq_true_iff] at same
      obtain ⟨rfl, of⟩ := same
      have copyStored := (mem_entries _ _ _).1 member
      refine ⟨((key.1, other), copy), member, ?_⟩
      rw [of, Option.isSome_some, Bool.true_or, Bool.and_true, Bool.not_eq_true']
      by_contra kept
      rw [Bool.not_eq_false] at kept
      rcases (keeps_iff (db.directKeep now)).1 kept with direct | ⟨_, _, lastStored, source, _⟩
      · exact absurd ((keeps_iff (db.directKeep now)).2
          (.inr ⟨other, copy, copyStored, of, direct⟩)) (Bool.not_eq_true _ ▸ unkept)
      · cases versioned _ _ _ lastStored with
        | canonical _ _ _ first => cases source.symm.trans first
        | copy origin earlier _ from' earlierStored first =>
          cases source.symm.trans from'
          cases copyStored.symm.trans earlierStored
          cases of.symm.trans first
  obtain ⟨entry, member, condition⟩ := found
  intro empty
  have listed : entry ∈ (db.store.versions.entries.filter fun entry =>
      !db.retentionKeepVersions now entry.1 &&
        (entry.2.source.isSome || !db.store.aliased entry.1)).insertionSort collectedBefore :=
    (mem_insertionSort _).2 (mem_filter.2 ⟨member, condition⟩)
  rcases take_eq_nil_iff.1 empty with _ | nothing
  · omega
  · rw [nothing] at listed
    cases listed

theorem length_collectable_le : (db.collectable now batch).length <= batch :=
  length_take_le _ _

/-- The versions that go and those that stay are all there are. -/
theorem length_collected :
    (db.collected now batch).store.versions.keys.length + (db.collectable now batch).length =
      db.store.versions.keys.length := by
  have distinct : ((db.collectable now batch).map fst).Nodup := by
    refine .sublist ((take_sublist _ _).map fst) ?_
    refine (((perm_insertionSort _ _).map fst).nodup_iff).2 ?_
    exact db.store.versions.nodup.sublist (filter_sublist.map fst)
  have present : ∀ key ∈ (db.collectable now batch).map fst,
      key ∈ db.store.versions.keys := by
    intro _ member
    obtain ⟨_, candidate, rfl⟩ := mem_map.1 member
    exact (Table.mem_keys _ _).2 ⟨_, (mem_collectable candidate).1⟩
  have total := db.store.versions.length_filter_keys (fun _ => contains_iff_mem) distinct present
  rw [length_map] at total
  show (db.store.collect (db.collectable now batch)).versions.keys.length + _ = _
  unfold collect
  by_cases empty : db.collectable now batch = []
  · rw [if_pos empty, empty]
    rfl
  · rw [if_neg empty]
    exact total

theorem length_collected_lt (versioned : db.store.Versioned) (positive : 0 < batch)
    (stored : db.store.versions.get key = some row)
    (unkept : db.retentionKeepVersions now key = false) :
    (db.collected now batch).store.versions.keys.length < db.store.versions.keys.length := by
  have := length_pos_of_ne_nil (collectable_ne_nil versioned positive stored unkept)
  have : (db.collected now batch).store.versions.keys.length +
      (db.collectable now batch).length = db.store.versions.keys.length := length_collected
  omega

end

/-! ## Reading through handles -/

/-- Two states that agree on what a read through a writable handle looks at. -/
structure ReadsAlike (id : Nat) (left right : Db H) : Prop where
  mounts : right.mounts = left.mounts
  inodes : right.tree.inodes = left.tree.inodes
  aclSets : right.aclSets = left.aclSets
  writable : ∀ handle, left.mounts.handles.get id = some handle -> handle.flags.write = true
  base : ∀ staging manifest no, left.mounts.staging.get id = some staging ->
    staging.baseManifest = some manifest ->
      right.store.chunkAt manifest no = left.store.chunkAt manifest no

section

variable {id : Nat} {left right : Db H}

theorem ReadsAlike.hasAclPermission (alike : ReadsAlike id left right) (user : User)
    (inode : Nat) (permission : Permission) :
    right.hasAclPermission user inode permission = left.hasAclPermission user inode permission := by
  unfold Db.hasAclPermission Db.aclHas Db.aclEntries Tree.liveInode
  rw [alike.inodes, alike.aclSets]

theorem alike_requireInodePermission (env : Env) (inode : Nat) (permission : Permission) :
    Alike (ReadsAlike (H := H) id) (requireInodePermission env inode permission)
      fun _ => True := by
  intro left right alike
  have same := alike.hasAclPermission env.user inode permission
  by_cases allowed : left.hasAclPermission env.user inode permission = true
  · exact .inr ⟨(), left, right, requireInodePermission_ok.2 ⟨allowed, rfl⟩,
      requireInodePermission_ok.2 ⟨same.trans allowed, rfl⟩, trivial, alike⟩
  · left
    refine ⟨⟨"VEXFS_PERMISSION_DENIED: permission denied for inode", "42501"⟩, ?_, ?_⟩
    · exact if_pos (by simpa using allowed)
    · exact if_pos (by simpa [same] using allowed)

theorem alike_checked {α : Type} {related : Db H -> Db H -> Prop} {look : Db H -> Except PgError α}
    (same : ∀ left right, related left right -> look right = look left) :
    Alike related (checked look) fun _ => True := by
  intro left right holds
  unfold checked
  rw [same left right holds]
  cases look left with
  | error error => exact .inl ⟨error, rfl, rfl⟩
  | ok value => exact .inr ⟨value, left, right, rfl, rfl, trivial, holds⟩

/-- A change of the row of a handle that keeps its flags. -/
theorem ReadsAlike.updateHandle (alike : ReadsAlike id left right)
    (flags : ∀ handle, (change handle).flags = handle.flags) :
    ReadsAlike id { left with mounts := left.mounts.updateHandle id change }
      { right with mounts := right.mounts.updateHandle id change } where
  mounts := by rw [alike.mounts]
  __ := alike
  writable handle stored := by
    have updated : (left.mounts.handles.update fun other row =>
        if other = id then change row else row).get id = some handle := stored
    rw [get_update] at updated
    obtain ⟨before, found, rfl⟩ := Option.map_eq_some_iff.1 updated
    rw [if_pos rfl, flags]
    exact alike.writable before found

theorem alike_requireHandleInode (env : Env) (permission : Permission) (inode : Option Nat) :
    Alike (ReadsAlike (H := H) id) (requireHandleInode env permission inode) fun _ => True := by
  cases inode with
  | none => exact .pure _
  | some inode => exact alike_requireInodePermission env inode permission

theorem alike_requireHandle (env : Env) (permission : Permission) :
    Alike (ReadsAlike (H := H) id) (requireHandle env id permission)
      fun handle => handle.flags.write = true := by
  refine .bind (.require (fun left right alike => by rw [alike.mounts]) fun left right handle alike
    found => alike.writable handle (Option.filter_eq_some_iff.1 found).1)
    fun handle writable => .bind (alike_requireHandleInode env permission handle.inode) fun _ _ =>
    .bind (.write fun left right alike => alike.updateHandle fun _ => rfl) fun _ _ => ?_
  exact fun left right alike => .inr ⟨_, left, right, rfl, rfl, writable, alike⟩

variable [DecidableEq H] [Digest H]

theorem ReadsAlike.readStagingRange (alike : ReadsAlike id left right) (offset length : Nat) :
    right.readStagingRange id offset length = left.readStagingRange id offset length := by
  have base : ∀ staging no, left.mounts.staging.get id = some staging ->
      right.baseChunk staging no = left.baseChunk staging no := by
    intro staging no staged
    unfold baseChunk
    cases from' : staging.baseManifest with
    | none => rfl
    | some manifest =>
      dsimp only
      rw [alike.base staging manifest no staged from']
  have chunk : ∀ no size, right.readStagingChunk id no size = left.readStagingChunk id no size := by
    intro no _
    unfold readStagingChunk
    rw [alike.mounts]
    cases staged : left.mounts.staging.get id with
    | none => rfl
    | some staging =>
      dsimp only
      rw [base staging no staged]
  unfold Db.readStagingRange Db.readStagingPart
  simp only [alike.mounts, chunk]

/-- A read through a writable handle. -/
theorem alike_handleRead (env : Env) (offset length : Nat) :
    Alike (ReadsAlike (H := H) id) (handleRead env id offset length) fun _ => True := by
  refine .bind (.rejectIf _ _) fun _ _ => .bind (alike_requireHandle env .read) fun handle
    writable => .bind (.rejectIf _ _) fun _ _ => ?_
  rw [writable]
  exact alike_checked fun left right alike => alike.readStagingRange offset length

end

/-! ## Bases that stay -/

/-- Some version has a manifest. -/
def Db.Based (db : Db H) (manifest : Nat) : Prop :=
  ∃ key row, db.store.versions.get key = some row ∧ row.manifest = some manifest

/-- What is staged for some handle is based on a manifest. -/
def Db.StagedOn (db : Db H) (manifest : Nat) : Prop :=
  ∃ id staging, db.mounts.staging.get id = some staging ∧ staging.baseManifest = some manifest

/-- Every manifest that staged content is based on and a version has is the manifest of a
version that is kept. -/
def Db.BasesLast (db : Db H) (now : Nat) : Prop :=
  ∀ manifest, db.StagedOn manifest -> db.Based manifest -> ∃ key row,
    db.store.versions.get key = some row ∧ row.manifest = some manifest ∧
      db.lastingKeep now key = true

section

variable {db : Db H} {now batch : Nat}

theorem blocks_eq_false :
    db.blocks candidates = false ↔ ∀ manifest, db.StagedOn manifest ->
      (db.store.unusedManifest candidates manifest && (db.store.manifests.get manifest).isSome) =
        false := by
  simp only [blocks, any_eq_false, Prod.forall, mem_entries, Option.any_eq_true,
    not_exists, not_and, Bool.not_eq_true]
  constructor
  · rintro free manifest ⟨id, staging, staged, base⟩
    exact free id staging staged manifest base
  · exact fun free id staging staged manifest base => free manifest ⟨id, staging, staged, base⟩

/-- A manifest does not go if none of its versions go or some of them stays. -/
theorem unusedManifest_eq_false :
    db.store.unusedManifest (db.collectable now batch) manifest = false ↔
      ((∃ entry ∈ db.collectable now batch, entry.2.manifest = some manifest) ->
        (db.collected now batch).Based manifest) := by
  have listed : ((db.collectable now batch).filterMap fun entry =>
      entry.2.manifest).contains manifest = true ↔
        ∃ entry ∈ db.collectable now batch, entry.2.manifest = some manifest := by
    rw [contains_iff_mem, mem_filterMap]
  have used : (db.store.deleteVersions ((db.collectable now batch).map fst)).manifestUsed
      manifest = true ↔ (db.collected now batch).Based manifest := by
    simp only [manifestUsed, any_eq_true, Prod.exists, mem_entries,
      decide_eq_true_iff, get_deleteVersions, Db.Based, get_collected_versions]
  rw [unusedManifest, <- listed, <- used, Bool.and_eq_false_imp]
  simp

theorem unblocked_of_basesLast (bases : db.BasesLast now) :
    db.blocks (db.collectable now batch) = false := by
  refine blocks_eq_false.2 fun manifest staged => ?_
  rw [unusedManifest_eq_false.2, Bool.false_and]
  rintro ⟨entry, candidate, has⟩
  obtain ⟨key, row, stored, hasIt, lasting⟩ :=
    bases manifest staged ⟨entry.1, entry.2, (mem_collectable candidate).1, has⟩
  exact ⟨key, row, (collected_of_kept (keep_of_lasting lasting)).trans stored, hasIt⟩

/-- A collection that succeeds leaves every base some version. -/
theorem based_collected [Digest H] (versioned : db.store.Versioned)
    (free : db.blocks (db.collectable now batch) = false) (staged : db.StagedOn manifest)
    (based : db.Based manifest) : (db.collected now batch).Based manifest := by
  obtain ⟨key, row, stored, has⟩ := based
  by_cases gone : key ∈ (db.collectable now batch).map fst
  · have present : (db.store.manifests.get manifest).isSome = true := by
      cases versioned key.1 key.2 row stored with
      | canonical other found hasOther _ manifested =>
        cases has.symm.trans hasOther
        rw [manifested]
        rfl
      | copy _ _ lacks => cases has.symm.trans lacks
    have stays := blocks_eq_false.1 free manifest staged
    rw [present, Bool.and_true] at stays
    obtain ⟨entry, candidate, rfl⟩ := mem_map.1 gone
    cases stored.symm.trans (mem_collectable candidate).1
    exact unusedManifest_eq_false.1 stays ⟨entry, candidate, has⟩
  · refine ⟨key, row, ?_, has⟩
    rw [get_collected_versions, if_neg gone, stored]

end

/-! ## Collections one after another -/

/-- What collections leave. -/
structure Shrinks (now : Nat) (db after : Db H) : Prop where
  mounts : after.mounts = db.mounts
  inodes : after.tree.inodes = db.tree.inodes
  aclSets : after.aclSets = db.aclSets
  mayUse : ∀ user permission, after.mayUse user permission = db.mayUse user permission
  paused : after.workspace.gcPaused = db.workspace.gcPaused
  lasting : ∀ key, after.lastingKeep now key = db.lastingKeep now key
  kept : ∀ key, db.lastingKeep now key = true ->
    after.store.versions.get key = db.store.versions.get key
  stored : ∀ key row, after.store.versions.get key = some row ->
    db.store.versions.get key = some row
  chunks : ∀ manifest no, db.StagedOn manifest ->
    after.store.chunkAt manifest no = db.store.chunkAt manifest no
  based : ∀ manifest, db.StagedOn manifest -> db.Based manifest -> after.Based manifest

section

variable {db after final : Db H} {now batch : Nat}

theorem Shrinks.stagedOn (shrinks : Shrinks now db after) :
    after.StagedOn manifest ↔ db.StagedOn manifest := by
  unfold Db.StagedOn
  rw [shrinks.mounts]

theorem Shrinks.trans (first : Shrinks now db after) (second : Shrinks now after final) :
    Shrinks now db final where
  mounts := second.mounts.trans first.mounts
  inodes := second.inodes.trans first.inodes
  aclSets := second.aclSets.trans first.aclSets
  mayUse user permission := (second.mayUse user permission).trans (first.mayUse user permission)
  paused := second.paused.trans first.paused
  lasting key := (second.lasting key).trans (first.lasting key)
  kept key lasting :=
    (second.kept key ((first.lasting key).trans lasting)).trans (first.kept key lasting)
  stored key row last := first.stored key row (second.stored key row last)
  chunks manifest no staged :=
    (second.chunks manifest no (first.stagedOn.2 staged)).trans (first.chunks manifest no staged)
  based manifest staged based :=
    second.based manifest (first.stagedOn.2 staged) (first.based manifest staged based)

theorem shrinks_collected [Digest H] (versioned : db.store.Versioned)
    (free : db.blocks (db.collectable now batch) = false) :
    Shrinks now db (db.collected now batch) where
  mounts := rfl
  inodes := rfl
  aclSets := rfl
  mayUse _ _ := rfl
  paused := rfl
  lasting := lastingKeep_collected
  kept _ lasting := collected_of_kept (keep_of_lasting lasting)
  stored _ _ := get_of_collected
  chunks manifest no staged := chunkAt_collect (blocks_eq_false.1 free manifest staged) no
  based _ := based_collected versioned free

/-- The bases of what is staged still last. -/
theorem Shrinks.basesLast (shrinks : Shrinks now db after) (bases : db.BasesLast now) :
    after.BasesLast now := by
  intro manifest staged based
  obtain ⟨key, row, stored, has⟩ := based
  obtain ⟨other, version, storedIt, hasIt, lasting⟩ :=
    bases manifest (shrinks.stagedOn.1 staged) ⟨key, row, shrinks.stored key row stored, has⟩
  exact ⟨other, version, (shrinks.kept other lasting).trans storedIt, hasIt,
    (shrinks.lasting other).trans lasting⟩

theorem Shrinks.readsAlike (shrinks : Shrinks now db after) {id : Nat}
    (opened : db.mounts.handles.get id = some handle) (writable : handle.flags.write = true) :
    ReadsAlike id db after where
  __ := shrinks
  writable other found := by
    cases opened.symm.trans found
    exact writable
  base staging manifest no staged base := shrinks.chunks manifest no ⟨id, staging, staged, base⟩

theorem reclaimableVersions_pos : 0 < db.reclaimableVersions now ↔
    ∃ key row, db.store.versions.get key = some row ∧
      db.retentionKeepVersions now key = false := by
  simp only [reclaimableVersions, length_pos_iff_exists_mem, mem_filter,
    Table.mem_keys, Bool.not_eq_true']
  exact exists_congr fun key => exists_and_right.symm

/-- The floor of the history is a recorded commit. -/
theorem metadataFloor_mem [Digest H] (sound : db.Sound) :
    (db.swept now batch).metadataFloor ∈ (db.swept now batch).history.checkpoints := by
  rcases metadataFloor_cases (db.swept now batch) with atHead | ⟨name, row, stored, same⟩
  · rw [atHead]
    exact mem_insert_self
  · exact same ▸ ((sound.swept now batch).history.snapshots name row stored).2

end

section

variable [Digest H] {env : Env} {batch rounds : Nat} {report : GcReport} {db final : Db H}

/-- Collections one after another, with no other call in between. -/
def gcRepeated (env : Env) (batch : Nat) : Nat -> Sql H GcReport
  | 0 => gc env batch
  | rounds + 1 => do
    let _ <- gc env batch
    gcRepeated env batch rounds

theorem gcRepeated_shrinks (sound : db.Sound)
    (returned : gcRepeated env batch rounds db = .ok (report, final)) :
    Shrinks env.now db final ∧
      (∀ key, final.retentionKeepVersions env.now key = db.lastingKeep env.now key) ∧
      report.hasMore = decide (0 < final.reclaimableVersions env.now) := by
  induction rounds generalizing db with
  | zero =>
    obtain ⟨_, _, _, free, _, rfl, rfl⟩ := gc_ok.1 returned
    exact ⟨shrinks_collected sound.versions free, keep_collected sound, rfl⟩
  | succ rounds step =>
    obtain ⟨_, _, first, rest⟩ := Tx.bind_ok.1 returned
    obtain ⟨_, _, _, free, _, rfl, _⟩ := gc_ok.1 first
    have shrinks : Shrinks env.now db _ := shrinks_collected sound.versions free
    obtain ⟨further, keep, more⟩ := step (sound.collected _ _) rest
    exact ⟨shrinks.trans further, fun key => (keep key).trans (shrinks.lasting key), more⟩

/-- The states from which collections succeed. -/
structure Ready (env : Env) (batch : Nat) (db : Db H) : Prop where
  sound : db.Sound
  sizes : 1 <= batch ∧ batch <= 10000
  may : db.mayUse env.user .admin = true
  running : db.workspace.gcPaused = false
  bases : db.BasesLast env.now

section

variable (ready : Ready env batch db)
include ready

theorem Ready.gc : gc env batch db = .ok (db.gcReport env.now batch, db.collected env.now batch) :=
  gc_ok.2 ⟨ready.sizes, ready.may, ready.running, unblocked_of_basesLast ready.bases,
    fun _ => metadataFloor_mem ready.sound, rfl, rfl⟩

theorem Ready.shrinks : Shrinks env.now db (db.collected env.now batch) :=
  shrinks_collected ready.sound.versions (unblocked_of_basesLast ready.bases)

theorem Ready.collected :
    Ready env batch (db.collected env.now batch) where
  sound := ready.sound.collected _ _
  __ := ready
  bases := ready.shrinks.basesLast ready.bases

/-- Every collection that leaves something to collect leaves less than the one before. -/
theorem Ready.finishes :
    ∃ rounds report final, gcRepeated env batch rounds db = .ok (report, final) ∧
      report.hasMore = false := by
  obtain ⟨size, left⟩ : ∃ size, (db.collected env.now batch).store.versions.keys.length <= size :=
    ⟨_, le_rfl⟩
  induction size generalizing db with
  | zero =>
    have none : (db.collected env.now batch).reclaimableVersions env.now <= 0 :=
      (length_filter_le _ _).trans left
    exact ⟨0, _, _, ready.gc, decide_eq_false none.not_gt⟩
  | succ size step =>
    cases more : (db.gcReport env.now batch).hasMore with
    | false => exact ⟨0, _, _, ready.gc, more⟩
    | true =>
      obtain ⟨_, _, stored, unkept⟩ :=
        reclaimableVersions_pos.1 (of_decide_eq_true more)
      have next := ready.collected
      have fewer := length_collected_lt next.sound.versions next.sizes.1 stored unkept
      obtain ⟨rounds, report, final, returned, last⟩ :=
        step next (Nat.le_of_lt_succ (fewer.trans_le left))
      exact ⟨rounds + 1, report, final, Tx.bind_ok.2 ⟨_, _, ready.gc, returned⟩, last⟩

end

/-- Reads through the writable handles that are not closed give the same. -/
def ReadsSame [DecidableEq H] (db after : Db H) : Prop :=
  ∀ id handle, db.mounts.handles.get id = some handle -> handle.flags.write = true ->
    handle.state ≠ .closed -> ∀ (reader : Env) (offset length : Nat),
      (handleRead reader id offset length db).map Prod.fst =
        (handleRead reader id offset length after).map Prod.fst

/-- Collections succeed, each deletes a version if there is one to delete and at most a batch,
and in the end exactly the versions that are kept are left. -/
structure Collects [DecidableEq H] (env : Env) (batch : Nat) (db : Db H) : Prop where
  succeeds : ∃ report after, gc env batch db = .ok (report, after) ∧
    (∀ key row, after.store.versions.get key = some row ->
      db.store.versions.get key = some row) ∧
    after.store.versions.keys.length + report.deletedVersions = db.store.versions.keys.length ∧
    report.deletedVersions <= batch ∧
    ((∃ key row, db.store.versions.get key = some row ∧
      db.retentionKeepVersions env.now key = false) -> 1 <= report.deletedVersions) ∧
    ReadsSame db after
  finishes : ∃ rounds report final, gcRepeated env batch rounds db = .ok (report, final) ∧
    report.hasMore = false ∧
    (∀ key, final.store.versions.get key =
      if final.retentionKeepVersions env.now key then db.store.versions.get key else none) ∧
    ReadsSame db final

variable [DecidableEq H]

theorem Shrinks.readsSame (shrinks : Shrinks now db final) : ReadsSame db final :=
  fun _ _ opened writable _ reader offset length =>
    (alike_handleRead reader offset length).map_fst (shrinks.readsAlike opened writable)

theorem Ready.collects (ready : Ready env batch db) : Collects env batch db where
  succeeds := by
    refine ⟨_, _, ready.gc, ready.shrinks.stored, length_collected, length_collectable_le, ?_,
      ready.shrinks.readsSame⟩
    rintro ⟨key, row, stored, unkept⟩
    exact length_pos_of_ne_nil (collectable_ne_nil ready.sound.versions ready.sizes.1 stored unkept)
  finishes := by
    obtain ⟨rounds, report, final, returned, last⟩ := ready.finishes
    obtain ⟨shrinks, keep, more⟩ := gcRepeated_shrinks ready.sound returned
    refine ⟨rounds, report, final, returned, last, fun key => ?_, shrinks.readsSame⟩
    rw [last] at more
    split_ifs with kept
    · exact shrinks.kept key ((keep key).symm.trans kept)
    · by_contra left
      obtain ⟨row, stored⟩ := Option.ne_none_iff_exists'.1 left
      exact of_decide_eq_false more.symm (reclaimableVersions_pos.2
        ⟨key, row, stored, Bool.eq_false_of_not_eq_true kept⟩)

/-- Collections succeed and end exactly if every base of staged content that some version has is
the manifest of a version that is kept. -/
theorem collects_iff_basesLast (reached : Reachable (fun _ _ => True) db)
    (sizes : 1 <= batch ∧ batch <= 10000) (may : db.mayUse env.user .admin = true)
    (running : db.workspace.gcPaused = false) :
    Collects env batch db ↔ db.BasesLast env.now := by
  have sound := reached.settled.sound
  refine ⟨fun collects => ?_, fun bases => Ready.collects ⟨sound, sizes, may, running, bases⟩⟩
  intro manifest staged based
  obtain ⟨_, _, _, returned, _, left, _⟩ := collects.finishes
  obtain ⟨shrinks, keep, _⟩ := gcRepeated_shrinks sound returned
  obtain ⟨key, row, stored, has⟩ := shrinks.based manifest staged based
  refine ⟨key, row, shrinks.stored key row stored, has, ?_⟩
  rw [left key] at stored
  split_ifs at stored with kept
  exact (keep key).symm.trans kept

end

/-- The owner writes a file twice, opens it for reading and writing after the first or after the
second time, and keeps no old versions. -/
def openedTrial (writes later : List (User × Op)) : Db Verbatim :=
  trial (writes ++ [(owner, .mountSessionStart "s"),
    (owner, .handleOpen [47, 102] ⟨true, true, false, false⟩ "r" (some "s"))] ++ later ++
    [(owner, .retentionSet 0 0)])

theorem collects_iff_basesLast_opened :
    Collects ⟨owner, 5000, 7, "request"⟩ 1
      (openedTrial [(owner, .write [47, 102] [1]), (owner, .write [47, 102] [2])] []) := by
  refine (collects_iff_basesLast (reachable_trial _) (by decide) (by decide +kernel)
    (by decide +kernel)).2 ?_
  rintro _ ⟨id, staging, staged, base⟩ -
  have bases : (openedTrial [(owner, .write [47, 102] [1]), (owner, .write [47, 102] [2])]
      []).mounts.staging.entries.all (fun entry => entry.2.baseManifest = some 2) = true := by
    decide +kernel
  have latest := all_eq_true.1 bases _ ((mem_entries _ id staging).2 staged)
  cases base.symm.trans (of_decide_eq_true latest)
  have kept : ((openedTrial [(owner, .write [47, 102] [1]), (owner, .write [47, 102] [2])]
      []).store.versions.get (2, 2)).any (fun row => row.manifest = some 2) = true := by
    decide +kernel
  obtain ⟨row, stored, has⟩ := (Option.any_eq_true _ _).1 kept
  exact ⟨(2, 2), row, stored, of_decide_eq_true has, by decide +kernel⟩

/-- A collection fails while the version that an open handle started from is not kept. -/
theorem gc_blocked_by_handle :
    ¬ ∀ (db : Db Verbatim) (env : Env) (batch : Nat), Reachable (fun _ _ => True) db ->
      1 <= batch ∧ batch <= 10000 -> db.mayUse env.user .admin = true ->
        db.workspace.gcPaused = false -> Collects env batch db := by
  intro claimed
  have collects := claimed
    (openedTrial [(owner, .write [47, 102] [1])] [(owner, .write [47, 102] [2])])
    ⟨owner, 5000, 7, "request"⟩ 1 (reachable_trial _) (by decide) (by decide +kernel)
    (by decide +kernel)
  obtain ⟨_, _, returned, _⟩ := collects.succeeds
  obtain ⟨_, _, _, free, _⟩ := gc_ok.1 returned
  exact absurd free (by decide +kernel)

end VexDB.PgFs
