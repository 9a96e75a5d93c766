import VexDB.VexFs.VersionRows

/-!
# Every reachable state is sound

The content tables, the version rows and the inode rows agree in every state
that any sequence of calls leads to.
-/

namespace VexDB.VexFs

open Storage Option Db

variable {H : Type} [DecidableEq H] [Digest H] {db after : Db H} {allowed : Db H -> Step -> Prop}
  {workspace : String}

/-- Content, versions and rows agree. -/
structure Db.Sound (db : Db H) : Prop where
  content : db.ContentSound
  rows : db.RowsSound
  settled : db.Settled

section

omit [DecidableEq H]

/-- A state that differs in other tables only. -/
theorem Db.Sound.of_same (sound : db.Sound) (manifests : after.manifests = db.manifests)
    (entries : after.manifestChunks = db.manifestChunks) (chunks : after.chunks = db.chunks)
    (versions : after.versions = db.versions) (inodes : after.inodes = db.inodes)
    (states : after.inodeStates = db.inodeStates) : after.Sound where
  content := sound.content.of_same manifests entries chunks versions
  rows := sound.rows.of_same inodes versions states
  settled := by
    unfold Db.Settled
    rw [inodes]
    exact sound.settled

theorem Db.Sound.updateInodes (sound : db.Sound)
    (follows : ∀ inode row other, change inode row = some other -> row.Follows other) :
    (db.updateInodes change).Sound where
  content := sound.content.of_same rfl rfl rfl rfl
  rows := sound.rows.updateInodes follows
  settled := by
    intro inode row found kind
    obtain ⟨old, stored, changed⟩ := get_updateInodes_some found
    cases result : change inode old with
    | none =>
      rw [result] at changed
      obtain rfl : old = row := changed
      exact sound.settled inode old stored kind
    | some other =>
      rw [result] at changed
      obtain rfl : other = _ := changed
      have step := follows inode old other result
      exact Nat.lt_of_lt_of_le (sound.settled inode old stored (step.kind ▸ kind)) step.grows

theorem Db.Sound.committed (sound : db.Sound) (env : Env) : (db.committed env).Sound where
  content := sound.content.of_same rfl rfl rfl rfl
  rows := sound.rows.committed sound.settled env
  settled := sound.settled

end

/-- The frame of storing a version: only content and versions change after the commit. -/
theorem Db.storedVersion_frame (db : Db H) (env : Env) (inode version size : Nat)
    (previous : Option Nat) (pieces : List (Nat × Option Nat × Bytes)) :
    ∃ versions manifests entries chunks, db.storedVersion env inode version size previous pieces =
        { (db.advanced env inode size version).committed env with
          versions := versions
          manifests := manifests
          manifestChunks := entries
          chunks := chunks } := by
  unfold storedVersion
  dsimp only
  obtain ⟨_, _, _, same⟩ :=
    ((db.advanced env inode size version).committed env).insertManifest_frame
    inode ((db.advanced env inode size version).committed env).nextManifest size previous pieces
  rw [same]
  exact ⟨_, _, _, _, rfl⟩

/-- Storing a version keeps a state sound; the inode may be a symbolic link that
has no content yet. -/
theorem Db.sound_storedVersion (content : db.ContentSound) (rows : db.RowsSound) (env : Env)
    {inode version size : Nat} {previous : Option Nat} {pieces : List (Nat × Option Nat × Bytes)}
    (storable : db.Storable inode version size previous)
    (settled : ∀ other row, other ≠ inode -> db.inodes.get other = some row ->
      row.kind = .symlink -> 0 < row.currentVersion)
    (free : db.versions.get (inode, version + 1) = none) (whole : db.PiecesOf inode size pieces)
    (bounded : size <= maxStagedBytes) :
    (db.storedVersion env inode version size previous pieces).Sound := by
  obtain ⟨_, current, number⟩ := storable.current
  obtain ⟨_, _, _, versions, _, _, rowSize, _⟩ :=
    storedVersion_content env version previous whole content
  obtain ⟨_, _, _, _, frame⟩ := db.storedVersion_frame env inode version size previous pieces
  have inodes : (db.storedVersion env inode version size previous pieces).inodes =
      (db.advanced env inode size version).inodes := by
    rw [frame]
    rfl
  refine ⟨content.storedVersion env previous whole bounded free,
    rows.advance env current number settled free inodes (by rw [frame]) versions rowSize, ?_⟩
  intro _ _ found
  rw [inodes] at found
  exact settled_advanced env settled found

omit [DecidableEq H] in
theorem Db.Sound.withLink (sound : db.Sound) (env : Env) (parent : Nat) (name : Name) :
    (db.withLink env parent name).ContentSound ∧ (db.withLink env parent name).RowsSound ∧
      ∀ other row, other ≠ db.nextInode ->
        (db.withLink env parent name).inodes.get other = some row -> row.kind = .symlink ->
        0 < row.currentVersion := by
  have same := (sameStores_insertInode db db.nextInode (newInode env .symlink 0o777)).trans
    (sameStores_addedDentry _ env parent name db.nextInode)
  refine ⟨sound.content.of_same same.manifests same.manifestChunks same.chunks same.versions,
    (sound.rows.insertInode env .symlink 0o777).addedDentry env parent name db.nextInode, ?_⟩
  intro other _ different found kind
  unfold Db.withLink at found
  rw [get_addedDentry_inodes, get_insertInode, if_neg different, map_eq_some_iff] at found
  obtain ⟨before, stored, rfl⟩ := found
  split_ifs at kind ⊢ with directory
  · exact Nat.succ_pos _
  · exact sound.settled other before stored kind

omit [Digest H] in
theorem Db.resolveVersionStorage_ok
    (resolved : db.resolveVersionStorage inode number = .ok storage) :
    ∃ version canonical, db.versions.get (inode, number) = some version ∧
      db.canonicalRow inode version = some canonical ∧
      canonical.manifest = some storage.manifest ∧ version.size = storage.size ∧
      version.checksum = storage.checksum ∧ canonical.checksum = version.checksum ∧
      storage.canonicalVersion = version.source.getD number ∧ storage.size <= maxStagedBytes := by
  unfold resolveVersionStorage at resolved
  split at resolved
  · cases resolved
  · rename_i version found
    dsimp only at resolved
    split at resolved
    · cases resolved
    · rename_i canonical canonicalRow
      split at resolved
      · cases resolved
      · rename_i id named
        split at resolved
        · cases resolved
        · rename_i manifest stored
          split_ifs at resolved with agrees
          rw [<- Except.ok.inj resolved]
          exact ⟨version, canonical, found, canonicalRow, named, rfl, rfl, agrees.2.2.1.symm, rfl,
            agrees.1⟩

theorem Db.Sound.storedAlias (sound : db.Sound) (env : Env)
    (resolved : db.resolveVersionStorage inode number = .ok source)
    (current : ∃ row, db.inodes.get inode = some row ∧ row.currentVersion = version)
    (free : db.versions.get (inode, version + 1) = none) :
    (db.storedAlias env inode version source).Sound := by
  obtain ⟨_, _, stored, _, _, size, checksum, _, canonicalIs,
    _⟩ := resolveVersionStorage_ok resolved
  obtain ⟨_, oldStored, oldVersion⟩ := current
  have versions : ∀ key, (db.storedAlias env inode version source).versions.get key =
      if key = (inode, version + 1) then some ⟨db.nextVersionId,
        (db.advanced env inode source.size version).nextCommit, none, source.size, source.checksum,
        some source.canonicalVersion, env.seconds⟩
      else db.versions.get key := fun key => Table.get_set _ _ _ _
  obtain ⟨row, rowStored, rowOriginal, rowSize, rowChecksum⟩ := sound.content.original stored
  rw [<- canonicalIs] at rowStored
  rw [size] at rowSize
  rw [checksum] at rowChecksum
  refine ⟨?_, ?_, ?_⟩
  · refine sound.content.add rfl rfl rfl ?_ ?_
    · intro _ other otherStored
      rw [versions, if_neg]
      · exact otherStored
      · rintro rfl
        rw [free] at otherStored
        cases otherStored
    · intro _ _ other otherFound
      rw [versions] at otherFound
      split_ifs at otherFound with isNew
      · cases isNew
        cases otherFound
        exact .inr ⟨rfl, _, row, rfl, rowStored, rowOriginal, rowSize, rowChecksum⟩
      · exact .inl otherFound
  · exact sound.rows.advance env oldStored oldVersion
      (fun other result _ resultStored => sound.settled other result resultStored) free rfl rfl
      versions rfl
  · exact fun other _ => settled_advanced env fun other row _ => sound.settled other row

omit [DecidableEq H] in
theorem Db.Sound.restored (sound : db.Sound) (env : Env)
    (versions : db.RestoredVersions env target) : (db.restored env target).Sound := by
  obtain ⟨_, frame⟩ := (db.restoredTree env target).withVersions_frame
    (db.aliasesOfRestore env target)
  have same := db.sameStores_renumbered env target
  refine ⟨?_, sound.rows.restored env versions, ?_⟩
  · apply sound.content.add
    · unfold Db.restored
      rw [frame]
      exact same.manifests
    · unfold Db.restored
      rw [frame]
      exact same.manifestChunks
    · unfold Db.restored
      rw [frame]
      exact same.chunks
    · exact versions.kept
    · intro inode number version found
      rcases versions.added inode number version found with before | isAlias
      · exact .inl before
      · right
        obtain ⟨row, _, recorded, sourceStored, _, _, manifest, size, checksum, named, _⟩ :=
          isAlias.recorded
        obtain ⟨old, stored, counted, _⟩ := isAlias.row
        have notDirectory : row.kind ≠ .directory := by
          rw [sound.rows.recorded_kind recorded stored,
            <- sound.rows.restoredRow_kind env target stored]
          simp only [Inode.counted, Bool.and_eq_true, decide_eq_true_eq] at counted
          exact counted.1
        obtain ⟨_, _, otherStored, rowSize⟩ := sound.rows.recorded_version recorded notDirectory
        cases otherStored.symm.trans sourceStored
        obtain ⟨canonical, canonicalStored, original, canonicalSize, canonicalChecksum⟩ :=
          sound.content.original sourceStored
        exact ⟨manifest, _, canonical, named, canonicalStored, original,
          (canonicalSize.trans rowSize).trans size.symm, canonicalChecksum.trans checksum.symm⟩
  · intro inode row found kind
    rw [get_restored_inodes, map_eq_some_iff] at found
    obtain ⟨old, stored, rfl⟩ := found
    have result := sound.rows.restoresTo env target inode old
    generalize db.restoredRow env target inode old = row at result kind
    cases result with
    | tombstone => exact sound.settled inode old stored kind
    | directory row recorded directory => cases directory.symm.trans kind
    | same row recorded notDirectory largest =>
      exact (sound.rows.recorded_version recorded notDirectory).1
    | renumbered row largest recorded notDirectory bound later => exact Nat.succ_pos _

/-! ## Collection -/

section

omit [DecidableEq H] [Digest H]

theorem Db.subset_closeSources (db : Db H) (rounds : Nat) (kept : List (Nat × Nat)) :
    kept ⊆ db.closeSources rounds kept := by
  induction rounds generalizing kept with
  | zero => exact .refl _
  | succ rounds step =>
    exact List.Subset.trans (List.subset_append_left _ _) (step _)

/-- The current version of a live file is kept. -/
theorem Db.current_mem_keepSet (env : Env)
    (stored : db.inodes.get inode = some row) (live : row.live = true)
    (published : row.published = true) : (inode, row.currentVersion) ∈ db.keepSet env := by
  apply subset_closeSources
  simp only [List.mem_append]
  refine .inl (.inl (.inl (.inl ?_)))
  obtain ⟨notDirectory, positive⟩ := row.published_iff.1 published
  unfold keptCurrent
  rw [List.mem_filterMap]
  refine ⟨(inode, row), (Table.mem_entries _ _ _).2 stored, if_pos ⟨?_, positive⟩⟩
  simp only [Inode.counted, Bool.and_eq_true, decide_eq_true_eq]
  exact ⟨notDirectory, live⟩

theorem Db.get_deleteVersions_inodeStates (db : Db H) (deleted : List ((Nat × Nat) × Version H))
    (inode commit : Nat) (row : Inode) :
    (db.deleteVersions deleted).inodeStates.get (inode, commit) = some row ↔
      db.inodeStates.get (inode, commit) = some row ∧
        (inode, row.currentVersion) ∉ deleted.map Prod.fst := by
  unfold deleteVersions
  simp only [Table.get_filter, filter_eq_some_iff, Bool.not_eq_true', List.contains_eq_mem,
    decide_eq_false_iff_not]

end

omit [DecidableEq H] in
theorem Db.Sound.collected (sound : db.Sound) (env : Env) (batch : Nat) :
    (db.deleteVersions (db.deletedVersions env batch)).Sound := by
  have deletes := deletes_deletedVersions db env batch
  have stays : ∀ key version, db.versions.get key = some version -> key ∈ db.keepSet env ->
      (db.deleteVersions (db.deletedVersions env batch)).versions.get key = some version := by
    intro _ version stored kept
    rw [get_deleteVersions]
    refine ⟨stored, fun gone => ?_⟩
    obtain ⟨⟨_, row⟩, member, rfl⟩ := List.mem_map.1 gone
    exact (mem_deletedVersions member).2.1 kept
  refine ⟨sound.content.deleteVersions deletes, ?_, sound.settled⟩
  constructor
  · intro inode number version found
    exact sound.rows.numbered inode number version ((get_deleteVersions db _ _ _).1 found).1
  · intro inode row version stored published found
    exact sound.rows.sizes inode row version stored published
      ((get_deleteVersions db _ _ _).1 found).1
  · intro inode row stored live published
    obtain ⟨version, found⟩ := sound.rows.current inode row stored live published
    exact ⟨version, stays _ _ found (current_mem_keepSet env stored live published)⟩
  · exact sound.rows.unwritten
  · intro inode commit row found live notDirectory
    obtain ⟨before, kept⟩ := (get_deleteVersions_inodeStates db _ _ _ _).1 found
    obtain ⟨positive, version, stored, size⟩ :=
      sound.rows.states inode commit row before live notDirectory
    exact ⟨positive, version, (get_deleteVersions db _ _ _).2 ⟨stored, kept⟩, size⟩
  · intro inode commit row found
    exact sound.rows.known inode commit row
      ((get_deleteVersions_inodeStates db _ _ _ _).1 found).1

/-! ## All changes -/

theorem Change.sound (sound : db.Sound) (change : Change db after) : after.Sound := by
  cases change with
  | newInode env kind mode notLink =>
    refine ⟨sound.content.of_same rfl rfl rfl rfl, sound.rows.insertInode env kind mode, ?_⟩
    intro inode row found isLink
    rw [get_insertInode] at found
    split_ifs at found
    · cases found
      exact absurd isLink notLink
    · exact sound.settled inode row found isLink
  | symlink env parent name target admitted free storable unused bounded =>
    obtain ⟨content, rows, settled⟩ := sound.withLink env parent name
    refine sound_storedVersion content rows env storable settled ?_
      (piecesOf_contentPieces _ _ _) bounded
    unfold Db.withLink
    rw [versions_addedDentry]
    exact unused
  | attributes change core =>
    exact sound.updateInodes fun inode row other changed => (core inode row other changed).follows
  | tombstone change dead =>
    apply sound.updateInodes
    intro inode row other changed
    obtain ⟨time, rfl⟩ := dead inode row other changed
    exact row.follows_tombstone time
  | deleteDentry key =>
    unfold Db.deleteDentry
    split
    · exact sound
    · exact sound.of_same rfl rfl rfl rfl rfl rfl
  | moveDentry source target free =>
    unfold Db.moveDentry
    split
    · exact sound
    · exact sound.of_same rfl rfl rfl rfl rfl rfl
  | commit env => exact sound.committed env
  | version env inode version size previous pieces storable free whole bounded =>
    exact sound_storedVersion sound.content sound.rows env storable
      (fun other row _ stored => sound.settled other row stored) free whole
      (bounded sound.rows.sizes)
  | aliasVersion env inode version number source resolved admitted current free =>
    exact sound.storedAlias env resolved current free
  | restore env target current recorded restorable free =>
    exact sound.restored env (restoredVersions (lt_nextCommit_of_valid restorable.valid) free)
  -- The other changes are to tables that soundness does not read.
  | _ => exact sound.of_same rfl rfl rfl rfl rfl rfl

/-- The tables beside the file system agree. -/
structure Db.SameBeside (db after : Db H) : Prop where
  handles : after.handles = db.handles
  staging : after.staging = db.staging
  stagingChunks : after.stagingChunks = db.stagingChunks
  mountSession : after.mountSession = db.mountSession
  requests : after.requests = db.requests
  elsewhere : after.elsewhere = db.elsewhere

omit [DecidableEq H] [Digest H] in
theorem Db.SameBeside.trans (first : db.SameBeside between)
    (second : between.SameBeside after) : db.SameBeside after :=
  ⟨second.handles.trans first.handles, second.staging.trans first.staging,
    second.stagingChunks.trans first.stagingChunks, second.mountSession.trans first.mountSession,
    second.requests.trans first.requests, second.elsewhere.trans first.elsewhere⟩

theorem Db.sameBeside_storedVersion (db : Db H) (env : Env) (inode version size : Nat)
    (previous : Option Nat) (pieces : List (Nat × Option Nat × Bytes)) :
    db.SameBeside (db.storedVersion env inode version size previous pieces) := by
  obtain ⟨_, _, _, _, frame⟩ := db.storedVersion_frame env inode version size previous pieces
  rw [frame]
  exact ⟨rfl, rfl, rfl, rfl, rfl, rfl⟩

section

omit [DecidableEq H] [Digest H]

theorem Db.sameBeside_addedDentry (db : Db H) (env : Env) (parent : Nat) (name : Name)
    (inode : Nat) : db.SameBeside (db.addedDentry env parent name inode) := by
  obtain ⟨_, _, same⟩ := (db.insertDentry (parent, name) inode).inheritAcl_frame parent inode
  unfold addedDentry
  rw [same]
  exact ⟨rfl, rfl, rfl, rfl, rfl, rfl⟩

theorem Db.sameBeside_restored (db : Db H) (env : Env) (target : Nat) :
    db.SameBeside (db.restored env target) := by
  obtain ⟨_, frame⟩ := (db.restoredTree env target).withVersions_frame
    (db.aliasesOfRestore env target)
  obtain ⟨_, _, _, tree⟩ := db.restoreWorkspaceTree_eq env target
  unfold Db.restored
  rw [frame]
  unfold restoredTree
  rw [tree]
  exact ⟨rfl, rfl, rfl, rfl, rfl, rfl⟩

end

/-- Changes of the file system leave the tables beside it alone. -/
theorem Change.sameBeside (change : Change db after) : db.SameBeside after := by
  cases change with
  | symlink env parent name =>
    have created : db.SameBeside
        (db.insertInode db.nextInode (VexFs.newInode env .symlink 0o777)) :=
      ⟨rfl, rfl, rfl, rfl, rfl, rfl⟩
    have named : db.SameBeside (db.withLink env parent name) :=
      created.trans (sameBeside_addedDentry _ env parent name _)
    exact named.trans (sameBeside_storedVersion _ env _ _ _ _ _)
  | version env inode version size previous pieces =>
    exact db.sameBeside_storedVersion env inode version size previous pieces
  | restore env target => exact db.sameBeside_restored env target
  | deleteDentry =>
    unfold Db.deleteDentry
    split <;> exact ⟨rfl, rfl, rfl, rfl, rfl, rfl⟩
  | moveDentry =>
    unfold Db.moveDentry
    split <;> exact ⟨rfl, rfl, rfl, rfl, rfl, rfl⟩
  | _ => exact ⟨rfl, rfl, rfl, rfl, rfl, rfl⟩

theorem Changes.sameBeside (changes : Changes db after) : db.SameBeside after := by
  induction changes with
  | refl => exact ⟨rfl, rfl, rfl, rfl, rfl, rfl⟩
  | tail _ last kept => exact kept.trans last.sameBeside

theorem Transition.chunksStaged (staged : db.ChunksStaged) (step : Transition db after) :
    after.ChunksStaged := by
  cases step with
  | change change =>
    have same := change.sameBeside
    unfold Db.ChunksStaged at staged ⊢
    rw [same.staging, same.stagingChunks]
    exact staged
  | beside _ kept => exact kept staged

theorem Reachable.chunksStaged (reached : Reachable workspace allowed db) : db.ChunksStaged := by
  refine reached.keep (fun env elsewhere id no content found => ?_) fun _ _ staged step => ?_
  case refine_2 =>
    cases step with
    | transition step => exact step.chunksStaged staged
    | collect => exact staged
  have none_staged : (VexFs.initial env elsewhere : Db H).stagingChunks = Table.empty := rfl
  rw [none_staged, Table.get_empty] at found
  cases found

omit [DecidableEq H] in
theorem Db.Sound.besides (sound : db.Sound) (same : db.besides after) : after.Sound := by
  unfold Db.besides at same
  rw [same]
  exact sound.of_same rfl rfl rfl rfl rfl rfl

theorem Transition.sound (sound : db.Sound) (step : Transition db after) : after.Sound := by
  cases step with
  | change change => exact change.sound sound
  | beside same => exact sound.besides same

theorem Transitions.sound (sound : db.Sound) (steps : Transitions db after) : after.Sound :=
  keep_of_steps Db.Sound (fun _ _ sound step => Transition.sound sound step) sound steps

theorem Evolves.sound (sound : db.Sound) (step : Evolves db after) : after.Sound := by
  cases step with
  | transition step => exact step.sound sound
  | collect env batch => exact sound.collected env batch

theorem Step.sound (sound : db.Sound) (workspace : String) (step : Step) :
    (step.run workspace db).Sound :=
  keep_of_steps Db.Sound (fun _ _ sound step => Evolves.sound sound step) sound
    (step.evolves workspace db)

omit [DecidableEq H] in
theorem sound_initial (env : Env) (elsewhere : RowIds) : (initial env elsewhere : Db H).Sound := by
  have blankSound : (blank elsewhere : Db H).Sound := by
    refine ⟨⟨?_, ?_, ?_, ?_, ?_, ?_⟩, ⟨?_, ?_, ?_, ?_, ?_, ?_⟩, ?_⟩
    all_goals
      intros
      simp_all [blank, Db.SizesAgree, Db.Settled]
  rw [initial_eq]
  apply Db.Sound.committed
  have created : ((blank elsewhere : Db H).insertInode (blank elsewhere : Db H).nextInode
      (newInode env .directory 0o755)).RowsSound := blankSound.rows.insertInode env .directory 0o755
  refine ⟨blankSound.content.of_same rfl rfl rfl rfl, created.of_same rfl rfl rfl, ?_⟩
  intro inode row found kind
  change ((blank elsewhere : Db H).insertInode (blank elsewhere : Db H).nextInode
    (newInode env .directory 0o755)).inodes.get inode = some row at found
  rw [get_insertInode] at found
  split_ifs at found
  · cases found
    cases kind
  · exact absurd found (by simp [blank])

/-- Content, versions and rows agree in every reachable state. -/
theorem Reachable.sound (reached : Reachable workspace allowed db) : db.Sound :=
  reached.keep sound_initial fun _ _ sound step => step.sound sound

/-- A version can be read, and has a size. -/
def Db.Reads (db : Db H) (inode number size : Nat) : Prop :=
  ∃ content, db.readVersionContent inode number = .ok content ∧ content.length = size

/-- After every sequence of calls, collections included, every stored version can be read,
and so can every live file and every file that a commit recorded as live. -/
theorem contents_readable_runSteps (env : Env) (elsewhere : RowIds) (workspace : String)
    (steps : List Step) :
    let db : Db H := runSteps workspace steps (initial env elsewhere)
    (∀ inode number version, db.versions.get (inode, number) = some version ->
      db.Reads inode number version.size) ∧
    (∀ inode row, db.inodes.get inode = some row -> row.live = true -> row.published = true ->
      db.Reads inode row.currentVersion row.size) ∧
    ∀ inode commit row, db.inodeStates.get (inode, commit) = some row -> row.live = true ->
      row.kind ≠ .directory -> db.Reads inode row.currentVersion row.size := by
  intro db
  have sound : db.Sound := (Reachable.initial env elsewhere).runSteps.sound
  refine ⟨fun _ _ _ found => sound.content.reads found, ?_, ?_⟩
  · intro inode row found live published
    obtain ⟨version, stored⟩ := sound.rows.current inode row found live published
    rw [<- sound.rows.sizes inode row version found published stored]
    exact sound.content.reads stored
  · intro inode commit row recorded live isFile
    obtain ⟨_, version, stored, size⟩ := sound.rows.states inode commit row recorded live isFile
    rw [<- size]
    exact sound.content.reads stored

end VexDB.VexFs
