import VexDB.PgFs.Collection
import VexDB.PgFs.Operations
import VexDB.PgFs.Reading
import VexDB.PgFs.Restores

/-!
# What holds in every state that operations lead to

The stored content is sound, every version is backed by content, the history
records the tree, and no batch of commits is open.  Edits keep the first three one
by one; the operations on snapshots and the collection keep them as a whole.
-/

namespace VexDB.PgFs

open Storage Tx
open VexFs (Bytes Name Kind DentryKey XattrKey Digest SnapshotType Durability)

variable {H : Type} [Digest H] {env : Env} {db : Db H}

/-- The invariant that every edit keeps. -/
structure Db.Sound (db : Db H) : Prop where
  store : db.store.Sound
  versions : db.store.Versioned
  history : Faithful db.tree db.history db.workspace.headCommit

namespace Db.Sound

variable {db after : Db H} {mounting batching : Prop}

section

variable (sound : db.Sound)
include sound

theorem edit (edit : Edit mounting batching db after) : after.Sound := by
  cases edit with
  | tree tree evolves => exact ⟨sound.store, sound.versions, sound.history.evolve evolves⟩
  | settings workspace head =>
    refine ⟨sound.store, sound.versions, ?_⟩
    rw [show ({ db with workspace := workspace } : Db H).workspace.headCommit =
      db.workspace.headCommit from head]
    exact sound.history
  | commit => exact ⟨sound.store, sound.versions, sound.history.advance (Nat.le_succ _)⟩
  | content store grows keeps =>
    exact ⟨keeps sound.store, grows.versioned sound.versions, sound.history⟩
  | version inode number row fresh backed =>
    refine ⟨sound.store.withVersions _, sound.versions.extend rfl ?_ ?_, sound.history⟩
    · intro _ other stored
      rwa [Table.get_set_of_ne]
      rintro rfl
      cases stored.symm.trans fresh
    · intro other _ _ stored
      rw [Table.get_set] at stored
      split_ifs at stored with here
      · cases here
        cases stored
        exact .inr backed
      · exact .inl stored
  | mounts | sequences | aclSets | batch => exact ⟨sound.store, sound.versions, sound.history⟩

theorem edits {α : Type} {call : Sql H α}
    (edits : Edits mounting batching call) {value : α} (returned : call db = .ok (value, after)) :
    after.Sound :=
  keep_of_steps Db.Sound (fun _ _ => Db.Sound.edit) sound (edits db value after returned)

/-- A capture at the head. -/
theorem capture : (db.captureMetadataCheckpoint db.workspace.headCommit).Sound :=
  ⟨sound.store, sound.versions, sound.history.record⟩

theorem snapshotted (env : Env) (name : String) (type : SnapshotType) :
    (db.snapshotted env name type).Sound := by
  refine ⟨sound.store, sound.versions, sound.history.record.onSnapshots ?_⟩
  intro other row stored
  rw [Table.get_set] at stored
  split_ifs at stored
  · cases stored
    exact ⟨le_rfl, List.mem_insert_self⟩
  · exact (sound.history.snapshots other row stored).imp_right List.mem_insert_of_mem

theorem safeguarded (env : Env) (safety : Option String) : (db.safeguarded env safety).Sound := by
  cases safety with
  | none => exact sound
  | some name => exact sound.snapshotted env name .safety

theorem onSnapshots
    (fewer : ∀ name row, snapshots.get name = some row → db.history.snapshots.get name = some row) :
    Db.Sound { db with history.snapshots := snapshots } :=
  ⟨sound.store, sound.versions, sound.history.onSnapshots fun name row stored =>
    sound.history.snapshots name row (fewer name row stored)⟩

theorem replaced [DecidableEq H] (env : Env) (commit : Nat)
    (target : TargetTree) : (db.replaced env commit target).Sound := by
  refine ⟨sound.store.withVersions _, Db.versioned_addRestored sound.versions,
    sound.history.evolve ?_⟩
  exact Tree.evolves_restored.trans <| (Tree.evolves_updateInodes _).trans <|
    (Tree.evolves_deleteXattrs _).trans (Tree.evolves_insertXattrs _)

theorem restored [DecidableEq H] (env : Env) (target : TargetTree) :
    (db.restored env target).Sound :=
  have advanced : db.advanceHead.Sound :=
    ⟨sound.store, sound.versions, sound.history.advance (Nat.le_succ _)⟩
  (advanced.replaced env (db.workspace.headCommit + 1) target).capture

theorem swept (now batch : Nat) : (db.swept now batch).Sound :=
  have collected : Db.Sound { db with store := db.store.collect (db.collectable now batch) } :=
    ⟨sound.store.collect, sound.versions.collect (Db.collectable_collectable now batch),
      sound.history⟩
  collected.capture

theorem compacted : db.compacted.Sound := by
  refine ⟨sound.store, sound.versions, ?_⟩
  show Faithful db.tree (if db.compacts then _ else _) db.workspace.headCommit
  split_ifs
  · refine sound.history.compact ?_ ?_
    · rcases metadataFloor_cases db with atHead | ⟨name, row, stored, same⟩
      · exact atHead.le
      · exact same ▸ (sound.history.snapshots name row stored).1
    · exact fun _ _ stored => metadataFloor_le stored
  · exact sound.history

theorem collected (now batch : Nat) : (db.collected now batch).Sound :=
  (sound.swept now batch).compacted

end

end Db.Sound

/-! ## Batches of commits -/

section

variable {db after : Db H} {mounting : Prop}

theorem Edit.unbatched (unbatched : db.batch = none) (edit : Edit mounting False db after) :
    after.batch = none := by
  cases edit with
  | batch may => exact may.elim
  | commit =>
    unfold Db.advanceHead
    rw [unbatched]
    rfl
  | _ => exact unbatched

/-- A call that leaves no batch open. -/
abbrev Unbatched {α : Type} (call : Sql H α) : Prop :=
  Ensures (fun db => db.batch = none) call fun _ db => db.batch = none

theorem unbatched_of_edits {α : Type} {call : Sql H α} (edits : Edits True False call) :
    Unbatched call :=
  Tx.TracesFrom.ensures (fun _ _ => Edit.unbatched) (.of_traces edits)

omit [Digest H] in
theorem endCommitBatch_unbatched :
    Ensures (fun _ => True) (endCommitBatch : Sql H Unit) fun _ db => db.batch = none := by
  intro db _ _ _ returned
  rw [Tx.write_ok.1 returned]

variable [DecidableEq H]

theorem mountPublishCloseAll_unbatched {session : String} {limit : Nat} :
    Unbatched (H := H) (mountPublishCloseAll env session durability limit) := by
  refine .bind (unbatched_of_edits .of_readOnly) fun _ =>
    .bind (unbatched_of_edits .of_readOnly) fun _ =>
    .bind (unbatched_of_edits .of_readOnly) fun _ =>
    .bind (unbatched_of_edits .of_readOnly) fun found => ?_
  by_cases idle : (if limit = 0 then found else found.take limit) = []
  · rw [if_pos idle]
    exact .pure fun _ unbatched => unbatched
  · rw [if_neg idle]
    exact .bind_last fun _ => .bind_last fun _ => .bind endCommitBatch_unbatched fun _ =>
      .pure fun _ unbatched => unbatched

theorem mountPublishCloseClaimed_unbatched {session : String} {claims : List (Nat × Nat)} :
    Unbatched (H := H) (mountPublishCloseClaimed env session durability claims) := by
  refine .bind (unbatched_of_edits .of_readOnly) fun _ =>
    .bind (unbatched_of_edits .of_readOnly) fun _ =>
    .bind (unbatched_of_edits .of_readOnly) fun _ =>
    .bind (unbatched_of_edits .of_readOnly) fun _ =>
    .bind (unbatched_of_edits .of_readOnly) fun published => ?_
  unfold onlyIf
  dsimp only
  by_cases dirty : published.any Option.isNone = true
  · rw [if_pos dirty, if_pos dirty]
    exact .bind_last fun _ => .bind_last fun _ => .bind endCommitBatch_unbatched fun _ =>
      .pure fun _ unbatched => unbatched
  · rw [if_neg dirty, if_neg dirty]
    exact .bind (unbatched_of_edits (.pure _)) fun _ =>
      .bind (unbatched_of_edits (.mapM _ fun _ _ => edits_publishClaim)) fun _ =>
      .bind (unbatched_of_edits (.pure _)) fun _ => .pure fun _ unbatched => unbatched

omit [Digest H] [DecidableEq H] in
theorem Unbatched.discard {α : Type} {call : Sql H α} (unbatched : Unbatched call) :
    Unbatched (Tx.discard call) :=
  .bind unbatched fun _ => .pure fun _ still => still

/-- No operation on files leaves a batch open. -/
theorem Op.unbatched (env : Env) (op : Op) (onFiles : op.onHistory = false) :
    Unbatched (H := H) (op.call env) := by
  by_cases batches : op.batches = true
  · cases op with
    | mountPublishCloseAll => exact (mountPublishCloseAll_unbatched).discard
    | mountPublishCloseClaimed => exact (mountPublishCloseClaimed_unbatched).discard
    | _ => exact absurd batches (by simp [Op.batches])
  · have edits := op.edits (H := H) env onFiles
    rw [eq_false batches] at edits
    exact unbatched_of_edits edits

end

/-! ## Runs -/

/-- What holds between operations. -/
structure Db.Settled (db : Db H) : Prop where
  sound : db.Sound
  unbatched : db.batch = none

/-- A call keeps what holds between operations. -/
abbrev Settles {α : Type} (call : Sql H α) : Prop :=
  Ensures Db.Settled call fun _ db => db.Settled

theorem Db.Settled.drops (settled : db.Settled) (drops : Drops db after) : after.Settled := by
  obtain ⟨_, fewer, rfl⟩ := drops
  exact ⟨settled.sound.onSnapshots fewer, settled.unbatched⟩

theorem settles_snapshotCreate {name : String} {expectedHead : Option Nat} {consistent : Bool}
    {type : SnapshotType} :
    Settles (H := H) (snapshotCreate env name expectedHead consistent type) := by
  intro _ _ _ settled returned
  rw [(snapshotCreate_ok returned).2]
  exact ⟨settled.sound.snapshotted env name type, settled.unbatched⟩

variable [DecidableEq H]

theorem settles_snapshotRestore {name : String} {expectedHead : Nat}
    {safety caller : Option String} :
    Settles (H := H) (snapshotRestore env name expectedHead safety caller) := by
  intro db _ _ settled returned
  obtain ⟨target, restores⟩ := snapshotRestore_ok settled.unbatched returned
  rw [restores.result]
  refine ⟨(settled.sound.safeguarded env safety).restored env target, ?_⟩
  show ((db.safeguarded env safety).batch.map _) = none
  rw [Db.safeguarded_batch, settled.unbatched]
  rfl

section

omit [DecidableEq H]

theorem settles_gc {batch : Nat} : Settles (H := H) (gc env batch) := by
  intro _ _ _ settled returned
  obtain ⟨_, _, _, _, _, rfl, _⟩ := gc_ok.1 returned
  exact ⟨settled.sound.collected env.now batch, settled.unbatched⟩

theorem Settles.discard {α : Type} {call : Sql H α} (settles : Settles call) :
    Settles (Tx.discard call) :=
  .bind settles fun _ => .pure fun _ settled => settled

end

/-- Every operation keeps what holds between operations. -/
theorem Op.settles (env : Env) (op : Op) : Settles (H := H) (op.call env) := by
  cases history : op.onHistory with
  | false =>
    intro db nothing after settled returned
    exact ⟨settled.sound.edits (op.edits env history) returned,
      op.unbatched env history db nothing after settled.unbatched returned⟩
  | true =>
    cases op with
    | snapshotCreate => exact (settles_snapshotCreate).discard
    | snapshotDrop =>
      exact fun _ _ _ settled returned => settled.drops (snapshotDrop_drops returned)
    | snapshotPrune =>
      exact Settles.discard fun _ _ _ settled returned =>
        settled.drops (snapshotPrune_drops returned)
    | snapshotRestore => exact (settles_snapshotRestore).discard
    | gc => exact (settles_gc).discard
    | _ => exact absurd history (by simp [Op.onHistory])

omit [DecidableEq H] [Digest H] in
/-- A property that a call keeps holds after it, whether it fails or not. -/
theorem settle_keeps {α : Type} {call : Sql H α} (property : Db H -> Prop)
    (keeps : Ensures property call fun _ => property) (holds : property db) :
    property (settle call db) := by
  unfold settle
  cases outcome : call db with
  | error => exact holds
  | ok result => exact keeps db result.1 result.2 holds outcome

theorem Db.Settled.run (settled : db.Settled) (step : Step) : (step.run db).Settled :=
  settle_keeps Db.Settled (step.op.settles step.env) settled

section

omit [DecidableEq H]

theorem sound_blank (env : Env) (sequences : Sequences) : (blank env sequences : Db H).Sound where
  store := by constructor <;> simp [blank]
  versions _ _ _ stored := absurd stored (by simp [blank])
  history := by
    refine ⟨⟨fun _ _ => rfl, ?_⟩, ⟨fun _ _ => rfl, ?_⟩, ⟨fun _ _ => rfl, ?_⟩, ?_, ?_, ?_⟩
    all_goals simp [blank]

theorem settled_initial (env : Env) (sequences : Sequences) :
    (initial env sequences : Db H).Settled := by
  have edits : Edits (H := H) True False (workspaceCreate env) :=
    .bind (edits_insertInode _) fun _ =>
      .bind (edits_onWorkspace (fun _ => rfl) fun _ => rfl) fun _ =>
      .bind edits_recordCommit fun _ => .pure _
  exact settle_keeps Db.Settled
    (fun db _ after settled returned => ⟨settled.sound.edits edits returned,
      unbatched_of_edits edits db _ after settled.unbatched returned⟩)
    ⟨sound_blank env sequences, rfl⟩

end

theorem Reachable.settled (reached : Reachable allowed db) : db.Settled := by
  induction reached with
  | initial env sequences => exact settled_initial env sequences
  | step step _ _ settled => exact settled.run step

/-- After every sequence of calls every stored chunk has its size and its digest, and every
stored version can be read. -/
theorem versions_readable_runSteps (env : Env) (sequences : Sequences) (steps : List Step) :
    let db : Db H := runSteps steps (initial env sequences)
    (∀ id chunk, db.store.chunks.get id = some chunk -> chunk.size = chunk.content.length ∧
      chunk.checksum = Digest.sha256 chunk.content) ∧
    ∀ inode number version, db.store.versions.get (inode, number) = some version ->
      ∃ content, db.store.readVersionContent inode number = .ok content := by
  intro db
  have sound : db.Sound := (Reachable.initial env sequences).runSteps.settled.sound
  refine ⟨sound.store.chunk, fun inode number version stored => ?_⟩
  obtain ⟨_, _, read⟩ := Store.readVersionContent_eq sound.store sound.versions stored
  exact ⟨_, read⟩

/-- After every sequence of calls the history shows at the head the live rows of whatever
is not marked as changed since, and no snapshot is later than the head. -/
theorem history_head_runSteps (env : Env) (sequences : Sequences) (steps : List Step) :
    let db : Db H := runSteps steps (initial env sequences)
    let head := db.workspace.headCommit
    (∀ inode, inode ∉ db.tree.dirtyInodes ->
      (db.history.snapshotInodes head).get inode = db.tree.shownInode inode) ∧
    (∀ key, db.tree.dirtyDentries.get key = none ->
      (db.history.snapshotDentries head).get key = db.tree.dentries.get key) ∧
    (∀ key, db.tree.dirtyXattrs.get key = none ->
      (db.history.snapshotXattrs head).get key = db.tree.xattrs.get key) ∧
    ∀ name row, db.history.snapshots.get name = some row -> row.commit <= head := by
  intro db head
  have sound : db.Sound := (Reachable.initial env sequences).runSteps.settled.sound
  obtain ⟨inodes, dentries, xattrs, _, _, snapshots⟩ := sound.history
  exact ⟨inodes.shows, fun key clean => dentries.shows key (not_not.2 clean),
    fun key clean => xattrs.shows key (not_not.2 clean),
    fun name row stored => (snapshots name row stored).1⟩

end VexDB.PgFs
