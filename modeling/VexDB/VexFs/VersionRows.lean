import VexDB.VexFs.ContentSound
import VexDB.VexFs.Restoring

/-!
# Inode rows and their versions

The current version of every live file or symbolic link with content is stored
with the size of its row, and so is the version of every live row that history
recorded.  No version has a number above the current one of its inode.
-/

namespace VexDB.VexFs

open Storage Option Nat Bool

variable {H : Type} {old row : Inode} {target : Nat} {db : Db H} {inode : Nat}

/-- Every symbolic link has content. -/
def Db.Settled (db : Db H) : Prop :=
  ∀ inode row, db.inodes.get inode = some row -> row.kind = .symlink -> 0 < row.currentVersion

/-- What the inode rows, live and recorded, say about the version table. -/
structure Db.RowsSound (db : Db H) : Prop where
  numbered : ∀ inode number version, db.versions.get (inode, number) = some version ->
    0 < number ∧ ∃ row, db.inodes.get inode = some row ∧
      (row.kind ≠ .directory -> number <= row.currentVersion)
  sizes : db.SizesAgree
  current : ∀ inode row, db.inodes.get inode = some row -> row.live = true ->
    row.published = true -> ∃ version, db.versions.get (inode, row.currentVersion) = some version
  unwritten : ∀ inode row, db.inodes.get inode = some row -> row.kind ≠ .directory ->
    row.currentVersion = 0 -> row.size = 0
  states : ∀ inode commit row, db.inodeStates.get (inode, commit) = some row -> row.live = true ->
    row.kind ≠ .directory -> 0 < row.currentVersion ∧
      ∃ version, db.versions.get (inode, row.currentVersion) = some version ∧
        version.size = row.size
  known : ∀ inode commit row, db.inodeStates.get (inode, commit) = some row ->
    ∃ current, db.inodes.get inode = some current ∧ current.kind = row.kind

/-- A row after an update: its kind and size stay, its version does unless it is a
directory, and it is not revived. -/
structure Inode.Follows (row other : Inode) : Prop where
  kind : other.kind = row.kind
  size : other.size = row.size
  version : row.kind ≠ .directory -> other.currentVersion = row.currentVersion
  grows : row.currentVersion <= other.currentVersion
  live : other.live = true -> row.live = true

theorem Inode.Follows.refl (row : Inode) : row.Follows row :=
  ⟨rfl, rfl, fun _ => rfl, le_refl _, id⟩

theorem Inode.SameCore.follows (same : row.SameCore other) :
    row.Follows other where
  __ := same
  grows := same.positive
  live := by
    unfold Inode.live
    rw [same.deletedAt]
    exact id

theorem Inode.follows_tombstone (row : Inode) (time : Nat) :
    row.Follows { row with deletedAt := some time } :=
  ⟨rfl, rfl, fun _ => rfl, le_refl _, fun live => absurd live (by simp [Inode.live])⟩

theorem Inode.Follows.published (follows : row.Follows other) (published : other.published = true) :
    row.published = true ∧ other.currentVersion = row.currentVersion := by
  unfold Inode.published at published ⊢
  rw [and_eq_true, decide_eq_true_eq, decide_eq_true_eq] at published ⊢
  rw [follows.kind] at published
  rw [follows.version published.1] at published
  exact ⟨published, follows.version published.1⟩

theorem Inode.published_iff (row : Inode) :
    row.published = true ↔ row.kind ≠ .directory ∧ 0 < row.currentVersion := by
  unfold Inode.published
  rw [and_eq_true, decide_eq_true_eq, decide_eq_true_eq]

section

variable (sound : db.RowsSound)
include sound

theorem Db.RowsSound.of_same {after : Db H} (inodes : after.inodes = db.inodes)
    (versions : after.versions = db.versions) (states : after.inodeStates = db.inodeStates) :
    after.RowsSound := by
  constructor
  all_goals simp only [Db.SizesAgree, inodes, versions, states]
  exacts [sound.numbered, sound.sizes, sound.current, sound.unwritten, sound.states, sound.known]

/-- Rows that follow the old ones, and no other change. -/
theorem Db.RowsSound.follow (same : db.SameStores after)
    (forward : ∀ inode row, db.inodes.get inode = some row ->
      ∃ other, after.inodes.get inode = some other ∧ row.Follows other)
    (backward : ∀ inode other, after.inodes.get inode = some other ->
      (∃ row, db.inodes.get inode = some row ∧ row.Follows other) ∨
        other.published = false ∧ other.size = 0) : after.RowsSound := by
  constructor
  · intro inode number version found
    rw [same.versions] at found
    obtain ⟨positive, row, stored, within⟩ := sound.numbered inode number version found
    obtain ⟨other, otherStored, follows⟩ := forward inode row stored
    refine ⟨positive, other, otherStored, fun notDirectory => ?_⟩
    exact (within (follows.kind ▸ notDirectory)).trans follows.grows
  · intro inode other version otherStored published found
    rw [same.versions] at found
    rcases backward inode other otherStored with ⟨row, stored, follows⟩ | ⟨unpublished, _⟩
    · obtain ⟨before, version_eq⟩ := follows.published published
      rw [version_eq] at found
      rw [sound.sizes inode row version stored before found, follows.size]
    · rw [unpublished] at published
      cases published
  · intro inode other otherStored live published
    rw [same.versions]
    rcases backward inode other otherStored with ⟨row, stored, follows⟩ | ⟨unpublished, _⟩
    · obtain ⟨before, version_eq⟩ := follows.published published
      rw [version_eq]
      exact sound.current inode row stored (follows.live live) before
    · rw [unpublished] at published
      cases published
  · intro inode other otherStored notDirectory zero
    rcases backward inode other otherStored with ⟨row, stored, follows⟩ | ⟨_, empty⟩
    · rw [follows.size]
      exact sound.unwritten inode row stored (follows.kind ▸ notDirectory)
        (le_zero.1 (zero ▸ follows.grows))
    · exact empty
  · rw [same.inodeStates, same.versions]
    exact sound.states
  · intro inode commit row found
    rw [same.inodeStates] at found
    obtain ⟨current, stored, kind⟩ := sound.known inode commit row found
    obtain ⟨other, otherStored, follows⟩ := forward inode current stored
    exact ⟨other, otherStored, follows.kind.trans kind⟩

theorem Db.RowsSound.updateInodes
    (follows : ∀ inode row other, change inode row = some other -> row.Follows other) :
    (db.updateInodes change).RowsSound := by
  have each : ∀ (inode : Nat) (row : Inode), row.Follows ((change inode row).getD row) := by
    intro inode row
    cases changed : change inode row with
    | none => exact .refl row
    | some other => exact follows inode row other changed
  apply sound.follow (Db.sameStores_updateInodes _ _)
  · intro inode row stored
    exact ⟨_, by rw [Db.get_updateInodes, stored]; rfl, each inode row⟩
  · intro inode _ found
    obtain ⟨row, stored, rfl⟩ := Db.get_updateInodes_some found
    exact .inl ⟨row, stored, each inode row⟩

theorem Db.RowsSound.insertInode (env : Env) (kind : Kind) (mode : Nat) :
    (db.insertInode db.nextInode (newInode env kind mode)).RowsSound := by
  apply sound.follow (Db.sameStores_insertInode _ _ _)
  · intro inode row stored
    refine ⟨row, ?_, .refl row⟩
    rw [Db.get_insertInode, if_neg (Db.ne_nextInode stored)]
    exact stored
  · intro _ other found
    rw [Db.get_insertInode] at found
    split_ifs at found
    · cases found
      refine .inr ⟨?_, rfl⟩
      rw [<- not_eq_true, Inode.published_iff]
      rintro ⟨notDirectory, positive⟩
      unfold newInode at notDirectory positive
      rw [if_neg notDirectory] at positive
      exact absurd positive (lt_irrefl 0)
    · exact .inl ⟨other, found, .refl other⟩

theorem Db.RowsSound.addedDentry (env : Env) (parent : Nat) (name : Name)
    (inode : Nat) : (db.addedDentry env parent name inode).RowsSound := by
  have touched : ∀ (other : Nat) (row : Inode), row.Follows
      (if other = parent ∧ (row.kind = .directory && row.live) = true then
        { row with
          currentVersion := row.currentVersion + 1
          updatedAt := env.now
          changedAt := env.now }
      else row) := by
    intro other row
    split_ifs with directory
    · refine ⟨rfl, rfl, fun isFile => ?_, le_succ _, id⟩
      rw [and_eq_true, decide_eq_true_eq] at directory
      exact absurd directory.2.1 isFile
    · exact .refl row
  apply sound.follow (Db.sameStores_addedDentry _ _ _ _ _)
  · intro other row stored
    exact ⟨_, by rw [Db.get_addedDentry_inodes, stored]; rfl, touched other row⟩
  · intro other _ found
    rw [Db.get_addedDentry_inodes, map_eq_some_iff] at found
    obtain ⟨row, stored, rfl⟩ := found
    exact .inl ⟨row, stored, touched other row⟩

/-- A commit records sound rows. -/
theorem Db.RowsSound.committed (settled : db.Settled) (env : Env) :
    (db.committed env).RowsSound := by
  refine ⟨sound.numbered, sound.sizes, sound.current, sound.unwritten, ?_, ?_⟩
  · intro inode commit row found live notDirectory
    rw [Db.get_committed_inodeStates] at found
    split_ifs at found
    · rcases or_eq_some_iff.1 found with recorded | ⟨_, old⟩
      · unfold Db.recordsInode at recorded
        split_ifs at recorded
        obtain ⟨stored, kept⟩ := filter_eq_some_iff.1 recorded
        have positive : 0 < row.currentVersion := by
          cases kind : row.kind with
          | directory => exact absurd kind notDirectory
          | symlink => exact settled inode row stored kind
          | file =>
            apply pos_of_ne_zero
            intro zero
            simp [Inode.unpublished, kind, zero] at kept
        have published := row.published_iff.2 ⟨notDirectory, positive⟩
        obtain ⟨version, versionStored⟩ := sound.current inode row stored live published
        exact ⟨positive, version, versionStored,
          sound.sizes inode row version stored published versionStored⟩
      · exact sound.states inode commit row old live notDirectory
    · exact sound.states inode commit row found live notDirectory
  · intro inode commit row found
    rcases Db.committed_inodeStates_some found with old | ⟨_, stored⟩
    · exact sound.known inode commit row old
    · exact ⟨row, stored, rfl⟩

end

/-! ## Versions -/

/-- An inode has content once it is advanced. -/
theorem Db.settled_advanced (env : Env) {version size other : Nat}
    (settled : ∀ other row, other ≠ inode -> db.inodes.get other = some row ->
      row.kind = .symlink -> 0 < row.currentVersion)
    (found : (db.advanced env inode size version).inodes.get other = some row)
    (kind : row.kind = .symlink) : 0 < row.currentVersion := by
  rw [Db.get_advanced, map_eq_some_iff] at found
  obtain ⟨before, stored, rfl⟩ := found
  split_ifs at kind ⊢ with here
  · exact succ_pos _
  · exact settled other before here stored kind

/-- A new version row with the size of the advanced inode row keeps the rows sound.
The inode itself may be a symbolic link that had no content yet. -/
theorem Db.RowsSound.advance {after : Db H} (sound : db.RowsSound) (env : Env)
    {version size : Nat} {row : Version H} (current : db.inodes.get inode = some old)
    (old_version : old.currentVersion = version)
    (settled : ∀ other row, other ≠ inode -> db.inodes.get other = some row ->
      row.kind = .symlink -> 0 < row.currentVersion)
    (free : db.versions.get (inode, version + 1) = none)
    (inodes : after.inodes = (db.advanced env inode size version).inodes)
    (states : after.inodeStates = ((db.advanced env inode size version).committed env).inodeStates)
    (versions : ∀ key, after.versions.get key =
      if key = (inode, version + 1) then some row else db.versions.get key)
    (rowSize : row.size = size) : after.RowsSound := by
  have kept : ∀ key other, db.versions.get key = some other ->
      after.versions.get key = some other := by
    intro _ other found
    rw [versions, if_neg]
    · exact found
    · rintro rfl
      rw [free] at found
      cases found
  have stored : after.versions.get (inode, version + 1) = some row := by rw [versions, if_pos rfl]
  -- Every row of the new state is the advanced one or an old one.
  have rows : ∀ other result, (db.advanced env inode size version).inodes.get other = some result ->
      (other = inode ∧ result.size = size ∧ result.currentVersion = version + 1) ∨
      (other ≠ inode ∧ db.inodes.get other = some result) := by
    intro other result found
    rw [Db.get_advanced, map_eq_some_iff] at found
    obtain ⟨before, beforeStored, rfl⟩ := found
    split_ifs with here
    · exact .inl ⟨here, rfl, rfl⟩
    · exact .inr ⟨here, beforeStored⟩
  have forward : ∀ other before, db.inodes.get other = some before ->
      ∃ result, (db.advanced env inode size version).inodes.get other = some result ∧
        result.kind = before.kind ∧ before.currentVersion <= result.currentVersion := by
    intro other before found
    refine ⟨_, by rw [Db.get_advanced, found]; rfl, ?_⟩
    split_ifs with here
    · subst here
      cases found.symm.trans current
      exact ⟨rfl, by rw [old_version]; exact le_succ _⟩
    · exact ⟨rfl, le_refl _⟩
  -- The commit comes last, so the rows are sound before it.
  have advanced : Db.RowsSound
      { db.advanced env inode size version with versions := after.versions } := by
    constructor
    · intro other number found foundRow
      rw [versions] at foundRow
      split_ifs at foundRow with isNew
      · obtain ⟨rfl, rfl⟩ := Prod.mk.inj isNew
        obtain ⟨result, resultStored, _, grows⟩ := forward other old current
        rcases rows other result resultStored with ⟨_, _, number_eq⟩ | ⟨different, _⟩
        · exact ⟨succ_pos _, result, resultStored, fun _ => by rw [number_eq]⟩
        · exact absurd rfl different
      · obtain ⟨positive, before, beforeStored, within⟩ :=
          sound.numbered other number found foundRow
        obtain ⟨result, resultStored, kind, grows⟩ := forward other before beforeStored
        exact ⟨positive, result, resultStored, fun notDirectory =>
          (within (kind ▸ notDirectory)).trans grows⟩
    · intro other result found resultStored published foundRow
      rcases rows other result resultStored with ⟨rfl, resultSize, number⟩ | ⟨different, before⟩
      · rw [number, stored] at foundRow
        rw [<- some.inj foundRow, rowSize, resultSize]
      · rw [versions, if_neg (fun same => different (Prod.mk.inj same).1)] at foundRow
        exact sound.sizes other result found before published foundRow
    · intro other result resultStored live published
      rcases rows other result resultStored with ⟨rfl, _, number⟩ | ⟨_, before⟩
      · rw [number]
        exact ⟨row, stored⟩
      · obtain ⟨found, foundRow⟩ := sound.current other result before live published
        exact ⟨found, kept _ _ foundRow⟩
    · intro other result resultStored notDirectory zero
      rcases rows other result resultStored with ⟨_, _, number⟩ | ⟨_, before⟩
      · rw [number] at zero
        cases zero
      · exact sound.unwritten other result before notDirectory zero
    · intro other commit result found live notDirectory
      obtain ⟨positive, foundVersion, foundRow, sizes⟩ :=
        sound.states other commit result found live notDirectory
      exact ⟨positive, foundVersion, kept _ _ foundRow, sizes⟩
    · intro other commit result found
      obtain ⟨now, nowStored, kind⟩ := sound.known other commit result found
      obtain ⟨later, laterStored, laterKind, _⟩ := forward other now nowStored
      exact ⟨later, laterStored, laterKind.trans kind⟩
  exact (advanced.committed (fun _ _ => Db.settled_advanced env settled) env).of_same inodes rfl
    states

/-! ## Restores -/

theorem Db.maxVersion_some (found : db.maxVersion inode = some largest) :
    (∃ version, db.versions.get (inode, largest) = some version) ∧
      ∀ number version, db.versions.get (inode, number) = some version -> number <= largest := by
  unfold Db.maxVersion at found
  rw [List.max?_eq_some_iff] at found
  obtain ⟨member, largest_of⟩ := found
  simp only [List.mem_map, List.mem_filter, Table.mem_keys, decide_eq_true_eq] at member largest_of
  constructor
  · obtain ⟨⟨_, number⟩, ⟨⟨version, stored⟩, rfl⟩, rfl⟩ := member
    exact ⟨version, stored⟩
  · intro number version stored
    exact largest_of number ⟨(inode, number), ⟨⟨version, stored⟩, rfl⟩, rfl⟩

theorem Db.exists_maxVersion (stored : db.versions.get (inode, number) = some version) :
    ∃ largest, db.maxVersion inode = some largest := by
  cases found : db.maxVersion inode with
  | some largest => exact ⟨largest, rfl⟩
  | none =>
    unfold Db.maxVersion at found
    rw [List.max?_eq_none_iff] at found
    have member : number ∈ (db.versions.keys.filter fun key => key.1 = inode).map Prod.snd := by
      simp only [List.mem_map, List.mem_filter, Table.mem_keys, decide_eq_true_eq]
      exact ⟨(inode, number), ⟨⟨version, stored⟩, rfl⟩, rfl⟩
    rw [found] at member
    cases member

/-- A recorded row is live, and history has it. -/
theorem Db.recorded_some (found : db.recorded commit inode = some row) :
    row.live = true ∧ ∃ point ≤ commit, db.inodeStates.get (inode, point) = some row := by
  unfold Db.recorded Db.imageAt at found
  rw [Table.get_filter, filter_eq_some_iff] at found
  obtain ⟨point, within, stored, _⟩ := (Table.get_latest _ _ _ _).1 found.1
  exact ⟨found.2, point, within, stored⟩

theorem Db.RowsSound.recorded_version (sound : db.RowsSound)
    (recorded : db.recorded commit inode = some row) (notDirectory : row.kind ≠ .directory) :
    0 < row.currentVersion ∧ ∃ version,
      db.versions.get (inode, row.currentVersion) = some version ∧ version.size = row.size := by
  obtain ⟨live, point, _, stored⟩ := Db.recorded_some recorded
  exact sound.states inode point row stored live notDirectory

/-- What becomes of an inode row in a restore: tombstoned, a directory as it was
recorded, or a file as it was recorded, renumbered if later versions exist. -/
inductive Db.RestoresTo (db : Db H) (env : Env) (target inode : Nat) (old : Inode) : Inode -> Prop
  | tombstone (absent : db.recorded target inode = none) :
      RestoresTo db env target inode old { old with deletedAt := some env.seconds }
  | directory (row : Inode) (recorded : db.recorded target inode = some row)
      (kind : row.kind = .directory) : RestoresTo db env target inode old row
  | same (row : Inode) (recorded : db.recorded target inode = some row)
      (kind : row.kind ≠ .directory)
      (largest : ∀ number version, db.versions.get (inode, number) = some version ->
        number <= row.currentVersion) : RestoresTo db env target inode old row
  | renumbered (row : Inode) (largest : Nat) (recorded : db.recorded target inode = some row)
      (kind : row.kind ≠ .directory)
      (bound : ∀ number version, db.versions.get (inode, number) = some version ->
        number <= largest) (later : row.currentVersion < largest) :
      RestoresTo db env target inode old { row with currentVersion := largest + 1 }

theorem Db.RowsSound.restoresTo (sound : db.RowsSound) (env : Env) (target inode : Nat)
    (old : Inode) : db.RestoresTo env target inode old (db.restoredRow env target inode old) := by
  cases recorded : db.recorded target inode with
  | none =>
    have row : db.restoredRow env target inode old =
        { old with deletedAt := some env.seconds } := by
      unfold Db.restoredRow Db.revivedRow
      rw [recorded]
      simp [Inode.counted]
    rw [row]
    exact .tombstone recorded
  | some row =>
    by_cases directory : row.kind = .directory
    · have result : db.restoredRow env target inode old = row := by
        unfold Db.restoredRow Db.revivedRow
        rw [recorded]
        simp [Inode.counted, directory]
      rw [result]
      exact .directory row recorded directory
    · obtain ⟨_, _, versionStored, _⟩ := sound.recorded_version recorded directory
      obtain ⟨largest, found⟩ := Db.exists_maxVersion versionStored
      obtain ⟨_, bound⟩ := Db.maxVersion_some found
      have result : db.restoredRow env target inode old =
          if largest > row.currentVersion then { row with currentVersion := largest + 1 }
          else row := by
        unfold Db.restoredRow Db.revivedRow
        rw [recorded, found]
        simp [Inode.counted, directory, (Db.recorded_some recorded).1]
      rw [result]
      split_ifs with later
      · exact .renumbered row largest recorded directory bound later
      · refine .same row recorded directory fun number other otherStored => ?_
        exact (bound number other otherStored).trans (le_of_not_gt later)

theorem Db.get_restored_inodes (db : Db H) (env : Env) (target inode : Nat) :
    (db.restored env target).inodes.get inode =
      (db.inodes.get inode).map (db.restoredRow env target inode) := by
  unfold Db.restored
  obtain ⟨_, same⟩ := (db.restoredTree env target).withVersions_frame
    (db.aliasesOfRestore env target)
  rw [same]
  exact db.get_renumbered_inodes env target inode

theorem Db.get_restored_inodeStates (db : Db H) (env : Env) (target : Nat) (key : Nat × Nat) :
    (db.restored env target).inodeStates.get key =
      ((db.renumbered env target).committed env).inodeStates.get key := by
  unfold Db.restored
  obtain ⟨_, same⟩ := (db.restoredTree env target).withVersions_frame
    (db.aliasesOfRestore env target)
  rw [same]
  rfl

/-- What restoring adds to the version table. -/
structure Db.RestoredVersions (db : Db H) (env : Env) (target : Nat) : Prop where
  kept : ∀ key version, db.versions.get key = some version ->
    (db.restored env target).versions.get key = some version
  added : ∀ inode number version,
    (db.restored env target).versions.get (inode, number) = some version ->
    db.versions.get (inode, number) = some version ∨
      db.RestoredAlias env target inode number version
  present : ∀ inode number version, db.RestoredAlias env target inode number version ->
    ∃ stored, (db.restored env target).versions.get (inode, number) = some stored

theorem Db.restoredVersions (early : target < db.nextCommit)
    (free : ∀ row ∈ db.aliasesOfRestore env target,
      (db.restoredTree env target).versions.get row.1 = none) : db.RestoredVersions env target := by
  have versions : (db.restoredTree env target).versions = db.versions :=
    (db.sameStores_renumbered env target).versions
  constructor
  · intro _ version stored
    exact Db.get_withVersions_old _ free (versions ▸ stored)
  · intro inode number version found
    rcases Db.get_withVersions _ _ _ _ found with old | ⟨id, row, member, rfl⟩
    · exact .inl (versions ▸ old)
    · obtain ⟨_, isAlias⟩ := (Db.mem_aliasesOfRestore early).1 member
      exact .inr ⟨isAlias.row, isAlias.recorded⟩
  · intro _ _ version isAlias
    apply Db.exists_withVersions
    refine .inr ⟨{ version with id := 0 }, ?_⟩
    rw [Db.mem_aliasesOfRestore early]
    exact ⟨rfl, isAlias.row, isAlias.recorded⟩

section

variable (sound : db.RowsSound)
include sound

section

variable {env : Env} (versions : db.RestoredVersions env target)
include versions

/-- The current version of a restored file, and its size. -/
theorem Db.RowsSound.restored_current (stored : db.inodes.get inode = some old)
    (live : (db.restoredRow env target inode old).live = true)
    (notDirectory : (db.restoredRow env target inode old).kind ≠ .directory) :
    0 < (db.restoredRow env target inode old).currentVersion ∧
      ∃ version, (db.restored env target).versions.get
          (inode, (db.restoredRow env target inode old).currentVersion) = some version := by
  have result := sound.restoresTo env target inode old
  generalize rowIs : db.restoredRow env target inode old = row at result live notDirectory
  cases result with
  | tombstone => exact absurd live (by simp [Inode.live])
  | directory row recorded kind => exact absurd kind notDirectory
  | same row recorded kind =>
    obtain ⟨positive, version, versionStored, _⟩ := sound.recorded_version recorded kind
    exact ⟨positive, version, versions.kept _ _ versionStored⟩
  | renumbered row largest recorded kind =>
    obtain ⟨_, source, sourceStored, _⟩ := sound.recorded_version recorded kind
    refine ⟨succ_pos _, ?_⟩
    apply versions.present inode (largest + 1) ⟨0, db.nextCommit, none, row.size, source.checksum,
      some (source.source.getD row.currentVersion), env.seconds⟩
    refine ⟨⟨old, stored, ?_, ?_⟩, row, source, recorded, sourceStored, ?_, rfl, rfl, rfl, rfl, rfl,
      rfl⟩
    · rw [rowIs]
      simp only [Inode.counted, and_eq_true, decide_eq_true_eq]
      exact ⟨kind, (Db.recorded_some recorded).1⟩
    · rw [rowIs]
    · omega

/-- The version row at the number of a restored row has its size. -/
theorem Db.RowsSound.restored_size (stored : db.inodes.get inode = some old)
    (published : (db.restoredRow env target inode old).published = true)
    (found : (db.restored env target).versions.get
      (inode, (db.restoredRow env target inode old).currentVersion) = some version)
    : version.size = (db.restoredRow env target inode old).size := by
  have result := sound.restoresTo env target inode old
  -- An alias under the number has the size that was recorded.
  have aliasSize : ∀ recorded, db.recorded target inode = some recorded ->
      db.RestoredAlias env target inode (db.restoredRow env target inode old).currentVersion
        version -> version.size = recorded.size := by
    intro recorded isRecorded isAlias
    obtain ⟨other, _, otherRecorded, _, _, _, _, size, _⟩ := isAlias.recorded
    cases isRecorded.symm.trans otherRecorded
    exact size
  have cases := versions.added inode _ version found
  generalize rowIs : db.restoredRow env target inode old = row at result published cases aliasSize
  cases result with
  | tombstone absent =>
    rcases cases with before | isAlias
    · exact sound.sizes inode old version stored published before
    · obtain ⟨_, source, otherRecorded, _⟩ := isAlias.recorded
      rw [absent] at otherRecorded
      cases otherRecorded
  | directory row recorded kind => exact absurd kind (row.published_iff.1 published).1
  | same row recorded kind largest =>
    obtain ⟨_, _, sourceStored, size⟩ := sound.recorded_version recorded kind
    rcases cases with before | isAlias
    · cases before.symm.trans sourceStored
      exact size
    · exact aliasSize row recorded isAlias
  | renumbered row largest recorded kind bound later =>
    rcases cases with before | isAlias
    · have within := bound _ _ before
      dsimp only at within
      omega
    · exact aliasSize row recorded isAlias

end

/-- A recorded row has the kind that the inode has now. -/
theorem Db.RowsSound.recorded_kind
    (recorded : db.recorded commit inode = some row) (stored : db.inodes.get inode = some old) :
    row.kind = old.kind := by
  obtain ⟨_, point, _, found⟩ := Db.recorded_some recorded
  obtain ⟨_, nowStored, kind⟩ := sound.known inode point row found
  rw [<- mem_unique stored nowStored] at kind
  exact kind.symm

/-- A restore leaves the kind of an inode. -/
theorem Db.RowsSound.restoredRow_kind (env : Env) (target : Nat)
    (stored : db.inodes.get inode = some old) :
    (db.restoredRow env target inode old).kind = old.kind := by
  have result := sound.restoresTo env target inode old
  generalize db.restoredRow env target inode old = row at result
  cases result with
  | tombstone => rfl
  | directory row recorded => exact sound.recorded_kind recorded stored
  | same row recorded => exact sound.recorded_kind recorded stored
  | renumbered row largest recorded =>
    have same := sound.recorded_kind recorded stored
    exact same

theorem Db.RowsSound.restored (env : Env)
    (versions : db.RestoredVersions env target) : (db.restored env target).RowsSound := by
  have rowOf : ∀ inode row, (db.restored env target).inodes.get inode = some row ->
      ∃ old, db.inodes.get inode = some old ∧ row = db.restoredRow env target inode old := by
    intro inode row found
    rw [Db.get_restored_inodes, map_eq_some_iff] at found
    obtain ⟨old, stored, rfl⟩ := found
    exact ⟨old, stored, rfl⟩
  have rowFor : ∀ inode old, db.inodes.get inode = some old ->
      (db.restored env target).inodes.get inode = some (db.restoredRow env target inode old) := by
    intro inode old stored
    rw [Db.get_restored_inodes, stored]
    rfl
  have states : ∀ inode commit row,
      (db.restored env target).inodeStates.get (inode, commit) = some row ->
      db.inodeStates.get (inode, commit) = some row ∨
        ∃ old, db.inodes.get inode = some old ∧ row = db.restoredRow env target inode old := by
    intro inode commit row found
    rw [Db.get_restored_inodeStates] at found
    rcases Db.committed_inodeStates_some found with old | ⟨_, now⟩
    · rw [(db.sameStores_renumbered env target).inodeStates] at old
      exact .inl old
    · rw [Db.get_renumbered_inodes, map_eq_some_iff] at now
      obtain ⟨before, stored, rfl⟩ := now
      exact .inr ⟨before, stored, rfl⟩
  constructor
  · intro inode number version found
    rcases versions.added inode number version found with before | isAlias
    · obtain ⟨positive, old, stored, within⟩ := sound.numbered inode number version before
      refine ⟨positive, _, rowFor inode old stored, fun notDirectory => ?_⟩
      have result := sound.restoresTo env target inode old
      rw [sound.restoredRow_kind env target stored] at notDirectory
      generalize db.restoredRow env target inode old = row at result
      cases result with
      | tombstone => exact within notDirectory
      | directory row recorded kind =>
        exact absurd ((sound.recorded_kind recorded stored).symm.trans kind) notDirectory
      | same row recorded kind largest => exact largest number version before
      | renumbered row largest recorded kind bound =>
        exact (bound number version before).trans (le_succ _)
    · obtain ⟨old, stored, counted, rfl⟩ := isAlias.row
      refine ⟨?_, _, rowFor inode old stored, fun _ => le_refl _⟩
      simp only [Inode.counted, and_eq_true, decide_eq_true_eq] at counted
      exact (sound.restored_current versions stored counted.2 counted.1).1
  · intro inode row version stored published found
    obtain ⟨old, oldStored, rfl⟩ := rowOf inode row stored
    exact sound.restored_size versions oldStored published found
  · intro inode row stored live published
    obtain ⟨old, oldStored, rfl⟩ := rowOf inode row stored
    exact (sound.restored_current versions oldStored live
      ((Inode.published_iff _).1 published).1).2
  · intro inode row stored notDirectory zero
    obtain ⟨old, oldStored, rfl⟩ := rowOf inode row stored
    by_cases live : (db.restoredRow env target inode old).live = true
    · have positive := (sound.restored_current versions oldStored live notDirectory).1
      omega
    · have result := sound.restoresTo env target inode old
      generalize db.restoredRow env target inode old = row at result live notDirectory zero
      cases result with
      | tombstone => exact sound.unwritten inode old oldStored notDirectory zero
      | directory row recorded kind => exact absurd kind notDirectory
      | same row recorded => exact absurd (Db.recorded_some recorded).1 live
      | renumbered row largest recorded =>
        exact absurd (Db.recorded_some recorded).1 live
  · intro inode commit row found live notDirectory
    rcases states inode commit row found with before | ⟨old, oldStored, rfl⟩
    · obtain ⟨positive, version, stored, size⟩ :=
        sound.states inode commit row before live notDirectory
      exact ⟨positive, version, versions.kept _ _ stored, size⟩
    · obtain ⟨positive, version, stored⟩ :=
        sound.restored_current versions oldStored live notDirectory
      exact ⟨positive, version, stored, sound.restored_size versions oldStored
        ((Inode.published_iff _).2 ⟨notDirectory, positive⟩) stored⟩
  · intro inode commit row found
    rcases states inode commit row found with before | ⟨old, oldStored, rfl⟩
    · obtain ⟨now, stored, kind⟩ := sound.known inode commit row before
      exact ⟨_, rowFor inode now stored, (sound.restoredRow_kind env target stored).trans kind⟩
    · exact ⟨_, rowFor inode old oldStored, rfl⟩

end

end VexDB.VexFs
