import VexDB.VexFs.Rows

/-!
# What a restore leaves

The rows of every table after `vexfs_snapshot_restore`, in terms of the rows
recorded for the commit that is restored.
-/

namespace VexDB.VexFs

open Storage List Option Table

variable {H : Type}

namespace Db

/-- The entries of an image between live inodes. -/
def liveDentries (image : Image) : Table DentryKey Nat :=
  image.dentries.filter fun key inode =>
    (image.inodes.get inode).isSome && (image.inodes.get key.1).isSome

/-- The extended attributes of the live inodes of an image. -/
def liveXattrs (image : Image) : Table XattrKey Bytes :=
  image.xattrs.filter fun key _ => (image.inodes.get key.1).isSome

/-- The access control entries of the live inodes of an image. -/
def liveAcl (image : Image) : Table AclKey AclRow :=
  image.aclEntries.filter fun key _ => (image.inodes.get key.inode).isSome

section

variable (db : Db H)

theorem insertDentries_eq (rows : List (DentryKey × Nat)) :
    rows.foldl (fun db entry => db.insertDentry entry.1 entry.2) db =
      { db with
        dentries := db.dentries.setAll rows
        dirtyDentries := db.dirtyDentries.setAll rows } := by
  induction rows generalizing db with
  | nil => rfl
  | cons row rows step =>
    rw [foldl_cons, step]
    rfl

theorem restoreDentries_eq (image : Image) :
    db.restoreDentries image =
      { db with
        dentries := db.dentries.setAll (liveDentries image).entries
        dirtyDentries := db.dirtyDentries.setAll (liveDentries image).entries } :=
  db.insertDentries_eq _

theorem setXattrs_eq (rows : List (XattrKey × Bytes)) :
    rows.foldl (fun db entry => db.setXattr entry.1 entry.2) db =
      { db with
        xattrs := db.xattrs.setAll rows
        dirtyXattrs := rows.foldl (fun dirty entry =>
          if (db.inodes.get entry.1.1).isSome then dirty.insert entry.1 else dirty)
            db.dirtyXattrs } := by
  induction rows generalizing db with
  | nil => rfl
  | cons row rows step =>
    rw [foldl_cons, step]
    rfl

theorem restoreXattrs_eq (image : Image) :
    db.restoreXattrs image =
      { db with
        xattrs := db.xattrs.setAll (liveXattrs image).entries
        dirtyXattrs := (liveXattrs image).entries.foldl (fun dirty entry =>
          if (db.inodes.get entry.1.1).isSome then dirty.insert entry.1 else dirty)
            db.dirtyXattrs } :=
  db.setXattrs_eq _

theorem setAcls_eq (rows : List (AclKey × AclRow)) :
    rows.foldl (fun db entry => db.setAcl entry.1 entry.2) db =
      { db with
        aclEntries := db.aclEntries.setAll rows
        dirtyAcl := rows.foldl (fun dirty entry => dirty.insert entry.1) db.dirtyAcl } := by
  induction rows generalizing db with
  | nil => rfl
  | cons row rows step =>
    rw [foldl_cons, step]
    rfl

theorem restoreAcl_eq (image : Image) :
    db.restoreAcl image =
      { db with
        aclEntries := db.aclEntries.setAll (liveAcl image).entries
        dirtyAcl := (liveAcl image).entries.foldl (fun dirty entry => dirty.insert entry.1)
          db.dirtyAcl } :=
  db.setAcls_eq _

end

/-- The state in which the inodes are restored and names and attributes are gone. -/
def clearedTree (db : Db H) (env : Env) (target : Nat) : Db H :=
  (db.clearTree env).restoreInodes (db.imageAt target)

/-- A restore lays the recorded names and attributes over the cleared tree. -/
theorem restoreWorkspaceTree_eq (db : Db H) (env : Env) (target : Nat) :
    ∃ dirtyDentries dirtyXattrs dirtyAcl, db.restoreWorkspaceTree env target =
        { db.clearedTree env target with
          dentries := empty.setAll (liveDentries (db.imageAt target)).entries
          xattrs := (db.clearedTree env target).xattrs.setAll
            (liveXattrs (db.imageAt target)).entries
          aclEntries := (db.clearedTree env target).aclEntries.setAll
            (liveAcl (db.imageAt target)).entries
          dirtyDentries := dirtyDentries
          dirtyXattrs := dirtyXattrs
          dirtyAcl := dirtyAcl } := by
  unfold restoreWorkspaceTree
  dsimp only
  rw [restoreDentries_eq, restoreXattrs_eq, restoreAcl_eq]
  exact ⟨_, _, _, rfl⟩

/-- The row of an inode after its tree is restored. -/
def revivedRow (db : Db H) (env : Env) (target inode : Nat) (row : Inode) : Inode :=
  (db.recorded target inode).getD { row with deletedAt := some env.seconds }

theorem get_clearedTree_inodes (db : Db H) (env : Env) (target inode : Nat) :
    (db.clearedTree env target).inodes.get inode =
      (db.inodes.get inode).map (db.revivedRow env target inode) := by
  unfold clearedTree restoreInodes
  rw [get_updateInodes]
  unfold clearTree
  rw [get_updateInodes, Option.map_map]
  rfl

/-- The row of an inode after a restore has renumbered it. -/
def restoredRow (db : Db H) (env : Env) (target inode : Nat) (row : Inode) : Inode :=
  let revived := db.revivedRow env target inode row
  if revived.counted then
    match db.recorded target inode, db.maxVersion inode with
    | some recorded, some largest =>
      if largest > recorded.currentVersion then { revived with currentVersion := largest + 1 }
      else revived
    | _, _ => revived
  else revived

/-- The state of a restore before its commit. -/
def renumbered (db : Db H) (env : Env) (target : Nat) : Db H :=
  (db.restoreWorkspaceTree env target).prepareRestoredVersionAliases target

theorem recorded_congr {left right : Db H} (states : right.inodeStates = left.inodeStates) :
    right.recorded = left.recorded := by
  unfold recorded imageAt
  rw [states]

theorem maxVersion_congr {left right : Db H} (versions : right.versions = left.versions) :
    right.maxVersion = left.maxVersion := by
  unfold maxVersion
  rw [versions]

section

variable (db : Db H)

theorem sameStores_restoreWorkspaceTree (env : Env) (target : Nat) :
    db.SameStores (db.restoreWorkspaceTree env target) := by
  obtain ⟨_, _, _, same⟩ := db.restoreWorkspaceTree_eq env target
  rw [same]
  constructor <;> rfl

theorem sameStores_renumbered (env : Env) (target : Nat) :
    db.SameStores (db.renumbered env target) :=
  (db.sameStores_restoreWorkspaceTree env target).trans (sameStores_updateInodes _ _)

theorem get_restoreWorkspaceTree_inodes (env : Env) (target inode : Nat) :
    (db.restoreWorkspaceTree env target).inodes.get inode =
      (db.inodes.get inode).map (db.revivedRow env target inode) := by
  obtain ⟨_, _, _, same⟩ := db.restoreWorkspaceTree_eq env target
  rw [same]
  exact db.get_clearedTree_inodes env target inode

theorem get_renumbered_inodes (env : Env) (target inode : Nat) :
    (db.renumbered env target).inodes.get inode =
      (db.inodes.get inode).map (db.restoredRow env target inode) := by
  unfold renumbered prepareRestoredVersionAliases
  rw [get_updateInodes, get_restoreWorkspaceTree_inodes, Option.map_map,
    recorded_congr (db.sameStores_restoreWorkspaceTree env target).inodeStates,
    maxVersion_congr (db.sameStores_restoreWorkspaceTree env target).versions]
  congr 1
  funext row
  unfold restoredRow
  dsimp only [Function.comp_apply]
  split_ifs
  · cases db.recorded target inode with
    | none => rfl
    | some =>
      cases db.maxVersion inode with
      | none => rfl
      | some =>
        dsimp only
        split_ifs <;> rfl
  · rfl

/-- A commit does not change what earlier commits recorded. -/
theorem recorded_committed (env : Env) (early : commit < db.nextCommit) :
    (db.committed env).recorded commit = db.recorded commit := by
  funext inode
  unfold recorded imageAt
  rw [Table.get_filter, Table.get_filter]
  congr 1
  apply Table.latest_congr
  intro _ _
  rw [get_committed_inodeStates, if_neg (by omega)]

end

/-- A commit that can be restored came before the next one. -/
theorem lt_nextCommit_of_valid {db : Db H} {commit : Nat}
    (valid : db.validateHistoryCommit commit = .ok ()) : commit < db.nextCommit := by
  unfold validateHistoryCommit at valid
  split_ifs at valid with missing
  apply lt_fresh
  rw [Table.mem_keys]
  exact ne_none_iff_exists'.1 (by simpa using missing)

/-! ## Aliases -/

/-- The alias that a restore stores for an inode. -/
structure RestoredAlias (db : Db H) (env : Env) (target inode number : Nat)
    (version : Version H) : Prop where
  row : ∃ old, db.inodes.get inode = some old ∧
    (db.restoredRow env target inode old).counted = true ∧
    (db.restoredRow env target inode old).currentVersion = number
  recorded : ∃ recorded source, db.recorded target inode = some recorded ∧
    db.versions.get (inode, recorded.currentVersion) = some source ∧
    number ≠ recorded.currentVersion ∧
    version.commit = db.nextCommit ∧ version.manifest = none ∧ version.size = recorded.size ∧
    version.checksum = source.checksum ∧
    version.source = some (source.source.getD recorded.currentVersion) ∧
    version.createdAt = env.seconds

variable {version : Version H}

theorem mem_aliasesOfRestore {db : Db H} {env : Env} {target : Nat} (early : target < db.nextCommit)
    {key : Nat × Nat} :
    (key, version) ∈ db.aliasesOfRestore env target ↔
      version.id = 0 ∧ db.RestoredAlias env target key.1 key.2 version := by
  have same := db.sameStores_renumbered env target
  have recordedSame : (db.restoredTree env target).recorded target = db.recorded target := by
    have committed : (db.restoredTree env target).recorded target =
        (db.renumbered env target).recorded target :=
      recorded_committed (db.renumbered env target) env (by rw [same.nextCommit]; exact early)
    rw [committed, recorded_congr same.inodeStates]
  have versionsSame : (db.restoredTree env target).versions = db.versions := same.versions
  have inodes : ∀ inode, (db.restoredTree env target).inodes.get inode =
      (db.inodes.get inode).map (db.restoredRow env target inode) :=
    fun inode => db.get_renumbered_inodes env target inode
  unfold aliasesOfRestore restoredAliases
  rw [recordedSame, versionsSame]
  obtain ⟨inode, _⟩ := key
  simp only [mem_filterMap]
  constructor
  · rintro ⟨⟨_, _⟩, member, chosen⟩
    rw [mem_entries, inodes, map_eq_some_iff] at member
    obtain ⟨old, stored, rfl⟩ := member
    split_ifs at chosen with counted
    simp only [bind_eq_some_iff] at chosen
    obtain ⟨recorded, found, source, sourceFound, chosen⟩ := chosen
    split_ifs at chosen with moved
    obtain ⟨keySame, rfl⟩ := Prod.mk.inj (some.inj chosen)
    cases keySame
    exact ⟨rfl, ⟨old, stored, counted, rfl⟩, recorded, source, found, sourceFound, moved,
      same.nextCommit, rfl, rfl, rfl, rfl, rfl⟩
  · rintro ⟨noId, ⟨old, stored, counted, rfl⟩, _, _, found, sourceFound, moved, commit,
      manifest, size, checksum, named, createdAt⟩
    refine ⟨(inode, db.restoredRow env target inode old), ?_, ?_⟩
    · rw [mem_entries, inodes, stored]
      rfl
    · rw [if_pos counted, found, bind_some, sourceFound, bind_some, if_pos moved]
      obtain ⟨_, _, _, _, _, _, _⟩ := version
      dsimp only at noId commit manifest size checksum named createdAt
      rw [noId, commit, manifest, size, checksum, named, createdAt, <- same.nextCommit]
      rfl

/-- Rows inserted under keys that no other row has. -/
theorem get_withVersions (db : Db H) (rows : List ((Nat × Nat) × Version H)) (key : Nat × Nat)
    (version : Version H) (found : (db.withVersions rows).versions.get key = some version) :
    db.versions.get key = some version ∨
      ∃ id row, (key, row) ∈ rows ∧ version = { row with id := id } := by
  induction rows generalizing db with
  | nil => exact .inl found
  | cons row rows step =>
    rcases step _ found with old | ⟨id, other, member, same⟩
    · rw [show (db.withVersion row.1.1 row.1.2 { row.2 with id := db.nextVersionId }).versions =
        db.versions.set row.1 { row.2 with id := db.nextVersionId } from rfl, get_set] at old
      split_ifs at old with here
      · subst here
        exact .inr ⟨db.nextVersionId, row.2, mem_cons_self, (some.inj old).symm⟩
      · exact .inl old
    · exact .inr ⟨id, other, mem_cons_of_mem _ member, same⟩

theorem exists_withVersions (db : Db H) (rows : List ((Nat × Nat) × Version H)) (key : Nat × Nat)
    (present : (db.versions.get key).isSome ∨ ∃ row, (key, row) ∈ rows) :
    ∃ version, (db.withVersions rows).versions.get key = some version := by
  induction rows generalizing db with
  | nil =>
    rcases present with stored | ⟨row, member⟩
    · exact isSome_iff_exists.1 stored
    · cases member
  | cons row rows step =>
    apply step
    by_cases here : key = row.1
    · left
      change ((db.versions.set row.1 _).get key).isSome
      rw [get_set, if_pos here]
      rfl
    · rcases present with stored | ⟨other, member⟩
      · left
        change ((db.versions.set row.1 _).get key).isSome
        rw [get_set, if_neg here]
        exact stored
      · right
        rcases mem_cons.1 member with same | later
        · exact absurd (congrArg Prod.fst same) here
        · exact ⟨other, later⟩

theorem get_withVersions_old (db : Db H) {rows : List ((Nat × Nat) × Version H)}
    (free : ∀ row ∈ rows, db.versions.get row.1 = none)
    (stored : db.versions.get key = some version) :
    (db.withVersions rows).versions.get key = some version := by
  have absent : ∀ row, (key, row) ∉ rows := by
    intro row member
    rw [free _ member] at stored
    cases stored
  obtain ⟨other, found⟩ := db.exists_withVersions rows key (.inl (by rw [stored]; rfl))
  rcases db.get_withVersions rows key other found with old | ⟨_, row, member, _⟩
  · rw [found, <- old, stored]
  · exact absurd member (absent row)

theorem withVersions_frame (db : Db H) (rows : List ((Nat × Nat) × Version H)) :
    ∃ versions, db.withVersions rows = { db with versions := versions } := by
  apply foldlRecOn (motive := fun after : Db H => ∃ versions, after =
    ({ db with versions := versions } : Db H))
  · exact ⟨_, rfl⟩
  · rintro _ ⟨_, rfl⟩ _ _
    exact ⟨_, rfl⟩

end Db

end VexDB.VexFs
