import VexDB.VexFs.Soundness

/-!
# Publishing a handle

What `PublishHandleInTransaction` checks and what it leaves.  Publishing touches
the staged content of its own handle only, and it only adds stored content.
-/

namespace VexDB.VexFs

open Storage Tx

variable {H : Type} [DecidableEq H] [Digest H]

/-- The chunks that manifests list are still listed and stored. -/
def Db.ContentGrows (db after : Db H) : Prop :=
  ∀ manifest no id chunk, db.manifestChunks.get (manifest, no) = some id ->
    db.chunks.get id = some chunk ->
    after.manifestChunks.get (manifest, no) = some id ∧ after.chunks.get id = some chunk

section

omit [DecidableEq H] [Digest H]

theorem Db.ContentGrows.refl (db : Db H) : db.ContentGrows db :=
  fun _ _ _ _ listed stored => ⟨listed, stored⟩

theorem Db.ContentGrows.trans {db between after : Db H} (first : db.ContentGrows between)
    (second : between.ContentGrows after) : db.ContentGrows after := by
  intro manifest no id chunk listed stored
  obtain ⟨listedThen, storedThen⟩ := first manifest no id chunk listed stored
  exact second manifest no id chunk listedThen storedThen

end

theorem Db.contentGrows_storedVersion {db : Db H} (sound : db.ContentSound) (env : Env)
    {inode size : Nat} (version : Nat) (previous : Option Nat)
    {pieces : List (Nat × Option Nat × Bytes)} (whole : db.PiecesOf inode size pieces) :
    db.ContentGrows (db.storedVersion env inode version size previous pieces) := by
  obtain ⟨_, _, stored, _⟩ := storedVersion_content env version previous whole sound
  intro manifest no id chunk listed present
  refine ⟨?_, stored.chunks id chunk present⟩
  obtain ⟨_, found⟩ := sound.listed manifest no id listed
  rw [stored.entries (manifest, no) (Table.ne_fresh _ _ found)]
  exact listed

/-- What publishing a generation of a handle checks, and the state it leaves. -/
structure Db.Publishes (db after : Db H) (env : Env) (id : Nat) (handle : Handle)
    (generation version : Nat) (staging : Staging) (previous : Option Nat)
    (pieces : List (Nat × Option Nat × Bytes)) : Prop where
  isNew : handle.publishedGeneration < generation
  latest : generation = handle.dirtyGeneration
  publishable : db.Publishable handle.inode handle.expectedVersion id generation staging previous
    pieces
  free : db.versions.get (handle.inode, handle.expectedVersion + 1) = none
  number : version = handle.expectedVersion + 1
  state : after = ((db.storedVersion env handle.inode handle.expectedVersion staging.logicalSize
      previous pieces).rebaseStaging id db.nextManifest).updateHandle id fun row =>
        { row with expectedVersion := version, publishedGeneration := generation }

theorem publishHandle_ok {env : Env} {id generation version : Nat} {handle : Handle}
    {db after : Db H} :
    publishHandleInTransaction env id handle generation db = .ok (version, after) ↔
      handle.state ≠ .closed ∧ ((generation <= handle.publishedGeneration ∧ after = db ∧
            ∃ row, db.inodes.get handle.inode = some row ∧ version = row.currentVersion) ∨
          ∃ staging previous pieces,
            db.Publishes after env id handle generation version staging previous pieces) := by
  unfold publishHandleInTransaction
  rw [bind_ok]
  simp only [rejectIf_ok]
  constructor
  · rintro ⟨_, _, ⟨opened, rfl⟩, rest⟩
    refine ⟨opened, ?_⟩
    split_ifs at rest with stale
    · simp only [bind_ok, nodeById_ok] at rest
      obtain ⟨node, _, ⟨⟨_, found⟩, rfl⟩, rfl, rfl⟩ := rest
      exact .inl ⟨stale, rfl, node.row, found, rfl⟩
    · simp only [bind_ok, rejectIf_ok, nodeById_ok, storeVersionFromStaging_ok, Tx.write_ok,
        not_not] at rest
      obtain ⟨_, _, ⟨latest, rfl⟩, node, _, ⟨⟨_, found⟩, rfl⟩, _, _, ⟨current, rfl⟩, _, _,
        ⟨rfl, free, staging, previous, pieces, publishable, rfl⟩, _, _, rfl, rfl, rfl⟩ := rest
      rw [current] at free publishable ⊢
      exact .inr ⟨staging, previous, pieces, Nat.lt_of_not_le stale, latest, publishable, free, rfl,
        rfl⟩
  · rintro ⟨opened, ⟨stale, rfl, row, found, rfl⟩ | ⟨staging, previous, pieces, publishes⟩⟩
    · refine ⟨⟨⟩, after, ⟨opened, rfl⟩, ?_⟩
      rw [if_pos stale]
      simp only [bind_ok, nodeById_ok, Tx.pure_ok]
      exact ⟨⟨handle.inode, row⟩, after, ⟨⟨rfl, found⟩, rfl⟩, rfl, rfl⟩
    · obtain ⟨_, latest, publishable, free, rfl, rfl⟩ := publishes
      obtain ⟨row, found, current⟩ := publishable.current
      refine ⟨⟨⟩, db, ⟨opened, rfl⟩, ?_⟩
      rw [if_neg (by omega)]
      simp only [bind_ok, rejectIf_ok, nodeById_ok, storeVersionFromStaging_ok, Tx.pure_ok,
        not_not]
      refine ⟨⟨⟩, db, ⟨latest, rfl⟩, ⟨handle.inode, row⟩, db, ⟨⟨rfl, found⟩, rfl⟩, ⟨⟩, db,
        ⟨current, rfl⟩, _, _, ⟨rfl, ?_, staging, previous, pieces, ?_, rfl⟩, ⟨⟩, _, rfl, ?_, ?_⟩
      · rw [current]
        exact free
      · rw [current]
        exact publishable
      · rw [current]
      · rw [current]
        rfl

section

variable {db after : Db H} {env : Env} {id generation version : Nat} {handle : Handle}
  {staging : Staging} {previous : Option Nat} {pieces : List (Nat × Option Nat × Bytes)}
  (publishes : db.Publishes after env id handle generation version staging previous pieces)

include publishes

theorem Db.Publishes.whole : db.PiecesOf handle.inode staging.logicalSize pieces :=
  (piecesOf_stagedPieces publishes.publishable.pieces).1

theorem Db.Publishes.contentGrows (sound : db.ContentSound) : db.ContentGrows after := by
  rw [publishes.state]
  exact Db.contentGrows_storedVersion sound env _ previous publishes.whole

/-- The rows of handles after publishing one of them. -/
theorem Db.Publishes.get_handles (other : Nat) :
    after.handles.get other = (db.handles.get other).map fun row =>
      if other = id then { row with expectedVersion := version, publishedGeneration := generation }
      else row := by
  rw [publishes.state]
  obtain ⟨_, _, _, _, frame⟩ := db.storedVersion_frame env handle.inode handle.expectedVersion
    staging.logicalSize previous pieces
  unfold Db.updateHandle
  rw [Table.get_update, frame]
  rfl

theorem Db.Publishes.get_staging (different : other ≠ id) :
    after.staging.get other = db.staging.get other ∧
      ∀ no, after.stagingChunks.get (other, no) = db.stagingChunks.get (other, no) := by
  rw [publishes.state]
  obtain ⟨_, _, _, _, frame⟩ := db.storedVersion_frame env handle.inode handle.expectedVersion
    staging.logicalSize previous pieces
  rw [frame]
  constructor
  · change (db.staging.update _).get other = _
    rw [Table.get_update]
    simp only [different]
    exact Option.map_id_apply
  · intro no
    change (db.stagingChunks.filter _).get (other, no) = _
    rw [Table.get_filter]
    simp only [ne_eq, different]
    cases db.stagingChunks.get (other, no) <;> rfl

/-- The rows of inodes after publishing to one of them. -/
theorem Db.Publishes.get_inodes (other : Nat) :
    after.inodes.get other = (db.inodes.get other).map fun row =>
      if other = handle.inode then
        { row with
          size := staging.logicalSize
          currentVersion := version
          updatedAt := env.now
          changedAt := env.now }
      else row := by
  obtain ⟨_, _, _, _, frame⟩ := db.storedVersion_frame env handle.inode handle.expectedVersion
    staging.logicalSize previous pieces
  rw [publishes.state, publishes.number, frame]
  exact db.get_advanced env handle.inode staging.logicalSize handle.expectedVersion other

end

end VexDB.VexFs
