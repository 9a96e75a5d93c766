import VexDB.PgFs.Soundness

/-!
# Snapshots keep their rows

A snapshot names a commit, and a capture at the head overwrites the rows recorded at
the head.  As long as no call captures changed rows while some snapshot is of the
head commit, every snapshot shows for as long as it exists what was live when it was
taken.
-/

namespace VexDB.PgFs

open Storage History
open VexFs (Bytes Name Kind DentryKey XattrKey Digest SnapshotType Verbatim slash)

variable {H : Type} [DecidableEq H] [Digest H] {name : String} {row : Snapshot}

/-- The operations that capture the tree at the head they find. -/
def Op.captures : Op -> Bool
  | .snapshotCreate .. | .gc .. => true
  | .snapshotRestore _ _ safety _ => safety.isSome
  | _ => false

/-- Nothing has changed since the last capture. -/
structure Tree.Recorded (tree : Tree) : Prop where
  inodes : tree.dirtyInodes = []
  dentries : tree.dirtyDentries.entries = []
  xattrs : tree.dirtyXattrs.entries = []

/-- Some snapshot is of the head commit. -/
def Db.HeadNamed (db : Db H) : Prop :=
  ∃ name row, db.history.snapshots.get name = some row ∧
    row.commit = db.workspace.headCommit

/-- A call that captures the tree starts without a snapshot of the head commit, or with
nothing changed since the last capture. -/
def CapturesFresh (db : Db H) (step : Step) : Prop :=
  step.op.captures = true -> db.HeadNamed -> db.tree.Recorded

/-- The live rows when the snapshot of an operation is taken.  A restore takes its safety
snapshot before it changes anything. -/
def Step.snapshotTree (step : Step) (db : Db H) : Tree :=
  match step.op with
  | .snapshotRestore .. => db.tree
  | _ => (step.run db).tree

/-- A run of allowed operations in which a snapshot is not dropped. -/
def Undropped (allowed : Db H -> Step -> Prop) (name : String) (row : Snapshot) :
    Db H -> Db H -> Prop :=
  Relation.ReflTransGen fun db after =>
    ∃ step : Step, allowed db step ∧ after = step.run db ∧
      after.history.snapshots.get name = some row

/-! ## One operation -/

section

omit [DecidableEq H] [Digest H]

/-- Views do not depend on the table of snapshots. -/
theorem History.showsSame_of_states {history other : History} {commit : Nat}
    (inodes : other.inodeStates = history.inodeStates)
    (dentries : other.dentryStates = history.dentryStates)
    (xattrs : other.xattrStates = history.xattrStates) : history.ShowsSame other commit where
  inodes _ := by rw [snapshotInodes, inodes, snapshotInodes]
  dentries _ := by rw [snapshotDentries, dentries, snapshotDentries]
  xattrs _ := by rw [snapshotXattrs, xattrs, snapshotXattrs]

/-- A capture of nothing changes nothing. -/
theorem History.showsSame_record_recorded (history : History) {tree : Tree}
    (recorded : tree.Recorded) (commit head : Nat) :
    history.ShowsSame (history.record tree head) commit := by
  refine showsSame_of_states ?_ ?_ ?_
  · show history.inodeStates.setAll (tree.capturedInodes head) = history.inodeStates
    rw [Tree.capturedInodes, recorded.inodes]
    rfl
  · show history.dentryStates.setAll (tree.capturedDentries head) = history.dentryStates
    rw [Tree.capturedDentries, recorded.dentries]
    rfl
  · show history.xattrStates.setAll (tree.capturedXattrs head) = history.xattrStates
    rw [Tree.capturedXattrs, recorded.xattrs]
    rfl

variable {db : Db H} {name : String} {row : Snapshot}

/-- A capture at the head keeps what a snapshot shows. -/
theorem showsSame_capture (faithful : Faithful db.tree db.history db.workspace.headCommit)
    (fresh : db.HeadNamed -> db.tree.Recorded) (stored : db.history.snapshots.get name = some row) :
    db.history.ShowsSame (db.history.record db.tree db.workspace.headCommit) row.commit := by
  rcases Nat.lt_or_ge row.commit db.workspace.headCommit with earlier | atHead
  · exact db.history.showsSame_record db.tree earlier
  · have same := Nat.le_antisymm (faithful.snapshots name row stored).1 atHead
    exact db.history.showsSame_record_recorded (fresh ⟨name, row, stored, same⟩) _ _

/-- An operation keeps what the snapshots show, and a snapshot it takes shows a tree. -/
structure Preserves (db : Db H) (tree : Tree) (after : Db H) : Prop where
  kept : ∀ name row, db.history.snapshots.get name = some row ->
    db.history.ShowsSame after.history row.commit
  taken : ∀ name row, after.history.snapshots.get name = some row ->
    db.history.snapshots.get name = some row ∨ after.history.Shows row.commit tree

variable {after : Db H}

theorem Preserves.of_states (inodes : after.history.inodeStates = db.history.inodeStates)
    (dentries : after.history.dentryStates = db.history.dentryStates)
    (xattrs : after.history.xattrStates = db.history.xattrStates)
    (fewer : ∀ name row, after.history.snapshots.get name = some row ->
      db.history.snapshots.get name = some row) : Preserves db tree after :=
  ⟨fun _ _ _ => showsSame_of_states inodes dentries xattrs,
    fun name row stored => .inl (fewer name row stored)⟩

theorem Preserves.of_drops (drops : Drops db after) : Preserves db tree after := by
  obtain ⟨_, fewer, rfl⟩ := drops
  exact .of_states rfl rfl rfl fewer

theorem Preserves.refl (db : Db H) (tree : Tree) : Preserves db tree db :=
  .of_states rfl rfl rfl fun _ _ stored => stored

theorem preserves_snapshotted (faithful : Faithful db.tree db.history db.workspace.headCommit)
    (fresh : db.HeadNamed -> db.tree.Recorded) (env : Env) (name : String) (type : SnapshotType) :
    Preserves db db.tree (db.snapshotted env name type) where
  kept other row stored := (showsSame_capture faithful fresh stored).trans
    (showsSame_of_states rfl rfl rfl)
  taken other row stored := by
    have inserted : (db.history.snapshots.set name _).get other = some row := stored
    rw [Table.get_set] at inserted
    split_ifs at inserted
    · cases inserted
      have same : (db.history.record db.tree db.workspace.headCommit).ShowsSame
          (db.snapshotted env name type).history db.workspace.headCommit :=
        showsSame_of_states rfl rfl rfl
      exact .inr (same.shows faithful.shows_record)
    · exact .inl inserted

theorem Preserves.trans (first : Preserves db tree between)
    (second : ∀ name row, between.history.snapshots.get name = some row ->
      between.history.ShowsSame after.history row.commit)
    (same : after.history.snapshots = between.history.snapshots)
    (keeps : ∀ name row, db.history.snapshots.get name = some row ->
      between.history.snapshots.get name = some row) : Preserves db tree after where
  kept name row stored := (first.kept name row stored).trans
    (second name row (keeps name row stored))
  taken name row stored := by
    rw [same] at stored
    exact (first.taken name row stored).imp_right (second name row stored).shows

end

variable {db after : Db H} {env : Env} {allowed : Db H -> Step -> Prop}

theorem preserves_restore
    (settled : db.Settled) (fresh : safety.isSome = true -> db.HeadNamed -> db.tree.Recorded)
    (returned : snapshotRestore env name expectedHead safety caller db = .ok (commit, after)) :
    Preserves db db.tree after := by
  obtain ⟨_, restores⟩ := snapshotRestore_ok settled.unbatched returned
  have faithful := settled.sound.history
  have safe := settled.sound.safeguarded env safety
  have first : Preserves db db.tree (db.safeguarded env safety) := by
    cases safety with
    | none => exact .refl db db.tree
    | some other => exact preserves_snapshotted faithful (fresh rfl) env other .safety
  rw [restores.result]
  refine first.trans (fun other row stored => ?_) rfl fun other row stored => ?_
  · have earlier := (safe.history.snapshots other row stored).1
    exact (db.safeguarded env safety).history.showsSame_record _ (Nat.lt_succ_of_le earlier)
  · cases safety with
    | none => exact stored
    | some free =>
      refine (Table.get_set_of_ne _ _ ?_).trans stored
      rintro rfl
      rw [restores.free other rfl] at stored
      cases stored

section

omit [DecidableEq H]

theorem preserves_collected (settled : db.Settled) (fresh : db.HeadNamed -> db.tree.Recorded)
    (now batch : Nat) (tree : Tree) : Preserves db tree (db.collected now batch) := by
  have swept : Preserves db tree (db.swept now batch) :=
    ⟨fun _ _ stored => showsSame_capture settled.sound.history fresh stored,
      fun _ _ stored => .inl stored⟩
  refine swept.trans (fun _ _ stored => ?_) (Db.compacted_snapshots _) fun _ _ stored => stored
  exact Db.showsSame_compacted _ (metadataFloor_le stored)

theorem Edit.history (edit : Edit mounting batching db after) : after.history = db.history := by
  cases edit with
  | _ => rfl

theorem history_of_edits {α : Type} {mounting batching : Prop} {call : Sql H α} {value : α}
    (edits : Edits mounting batching call) (returned : call db = .ok (value, after)) :
    after.history = db.history :=
  keep_of_steps (fun other => other.history = db.history)
    (fun _ _ same edit => (Edit.history edit).trans same) rfl (edits db value after returned)

end

/-- An allowed operation keeps what the snapshots show, and the one it takes shows the live
rows. -/
theorem Step.preserves (settled : db.Settled) (step : Step) (fresh : CapturesFresh db step) :
    Preserves db (step.snapshotTree db) (step.run db) := by
  obtain ⟨env, op⟩ := step
  unfold Step.run settle
  cases outcome : op.call env db with
  | error => exact .refl db _
  | ok result =>
    obtain ⟨_, after⟩ := result
    cases history : op.onHistory with
    | false =>
      have same := history_of_edits (op.edits env history) outcome
      exact .of_states (by rw [same]) (by rw [same]) (by rw [same]) fun _ _ stored => by
        rwa [same] at stored
    | true =>
      cases op with
      | snapshotCreate name expectedHead consistent type =>
        have live : Step.snapshotTree ⟨env, .snapshotCreate name expectedHead consistent type⟩ db =
            after.tree := by
          unfold Step.snapshotTree Step.run settle
          rw [outcome]
        obtain ⟨_, returned⟩ := Tx.discard_ok.1 outcome
        obtain ⟨_, rfl⟩ := snapshotCreate_ok returned
        have preserves := preserves_snapshotted settled.sound.history (fresh rfl) env name type
        rw [live]
        exact ⟨preserves.kept, fun other row stored => (preserves.taken other row stored).imp_right
          fun shows => ⟨shows.inodes, shows.dentries, shows.xattrs⟩⟩
      | snapshotDrop => exact .of_drops (snapshotDrop_drops outcome)
      | snapshotPrune =>
        obtain ⟨_, returned⟩ := Tx.discard_ok.1 outcome
        exact .of_drops (snapshotPrune_drops returned)
      | snapshotRestore =>
        obtain ⟨_, returned⟩ := Tx.discard_ok.1 outcome
        exact preserves_restore settled fresh returned
      | gc batch =>
        obtain ⟨_, returned⟩ := Tx.discard_ok.1 outcome
        obtain ⟨_, _, _, _, _, rfl, _⟩ := gc_ok.1 returned
        exact preserves_collected settled (fresh rfl) env.now batch _
      | _ => exact absurd history (by simp [Op.onHistory])

/-! ## Runs -/

theorem Undropped.settled (settled : db.Settled)
    (run : Undropped allowed name row db after) : after.Settled :=
  keep_of_steps Db.Settled (fun _ _ before ⟨step, _, same, _⟩ => same ▸ before.run step) settled run

theorem Undropped.stored (stored : db.history.snapshots.get name = some row)
    (run : Undropped allowed name row db after) : after.history.snapshots.get name = some row :=
  keep_of_steps (fun db : Db H => db.history.snapshots.get name = some row)
    (fun _ _ _ ⟨_, _, _, still⟩ => still) stored run

/-- What a snapshot shows stays as it is in a run of allowed operations. -/
theorem Undropped.showsSame (settled : db.Settled)
    (stored : db.history.snapshots.get name = some row)
    (run : Undropped CapturesFresh name row db after) :
    db.history.ShowsSame after.history row.commit := by
  induction run with
  | refl => exact .refl _ _
  | tail before last shown =>
    obtain ⟨step, fresh, rfl, _⟩ := last
    have middle := Undropped.settled settled before
    exact shown.trans ((step.preserves middle fresh).kept name row (Undropped.stored stored before))

/-- A snapshot taken in a run of allowed operations shows the rows that were live when it was
taken, for as long as it is not dropped. -/
theorem snapshots_immutable (reached : Reachable CapturesFresh db) (step : Step)
    (fresh : CapturesFresh db step) {name : String} {row : Snapshot}
    (created : (step.run db).history.snapshots.get name = some row)
    (new : db.history.snapshots.get name ≠ some row) {later : Db H}
    (run : Undropped CapturesFresh name row (step.run db) later) :
    later.history.Shows row.commit (step.snapshotTree db) := by
  have settled := reached.settled
  have shows := ((step.preserves settled fresh).taken name row created).resolve_left new
  exact (run.showsSame (settled.run step) created).shows shows

/-- An operation of the owner. -/
def ownerStep (op : Op) : Step := ⟨⟨owner, 5000, 7, "request"⟩, op⟩

/-- A new workspace with a mounted client. -/
def mountedTrial : Db Verbatim := trial [(owner, .mountSessionStart "s")]

/-- The first snapshot of a new workspace. -/
def firstSnapshot : Snapshot := ⟨1, .manual, 1, 5000⟩

/-- Take the first snapshot. -/
def takeSnapshot : Step := ownerStep (.snapshotCreate "a" none true .manual)

theorem snapshots_immutable_written :
    ((ownerStep (.write [47, 102] [1])).run (takeSnapshot.run (trial []))).history.Shows
      firstSnapshot.commit (takeSnapshot.snapshotTree (trial [])) := by
  have unnamed : (trial []).history.snapshots.entries = [] := by decide +kernel
  refine snapshots_immutable (.initial _ _) takeSnapshot ?_
    (show (takeSnapshot.run (trial [])).history.snapshots.get "a" = some firstSnapshot by
      decide +kernel)
    (by decide +kernel) (.single ⟨_, fun captures => absurd captures (by decide), rfl, ?_⟩)
  · rintro _ ⟨_, _, stored, _⟩
    rw [<- Table.mem_entries, show (initial _ _ : Db Verbatim).history.snapshots.entries = [] from
      unnamed] at stored
    cases stored
  · decide +kernel

/-- A file that is created without a commit after a snapshot, and captured with the next
collection, is in the snapshot. -/
theorem snapshot_gains_file :
    ¬ ∀ db : Db Verbatim, Reachable (fun _ _ => True) db -> ∀ (step : Step) (name : String)
      (row : Snapshot), (step.run db).history.snapshots.get name = some row ->
      db.history.snapshots.get name ≠ some row -> ∀ later : Db Verbatim,
      Undropped (fun _ _ => True) name row (step.run db) later ->
        later.history.Shows row.commit (step.snapshotTree db) := by
  intro claimed
  have shows := claimed mountedTrial (reachable_trial _)
    takeSnapshot "a" firstSnapshot (by decide +kernel) (by decide +kernel)
    ((ownerStep (.gc 1)).run ((ownerStep (.handleCreateOwned [47, 102] 420 0 0 "r" "s")).run
      (takeSnapshot.run mountedTrial)))
    (.tail (.single ⟨_, trivial, rfl, by decide +kernel⟩) ⟨_, trivial, rfl, by decide +kernel⟩)
  exact absurd (shows.dentries (1, [102])) (by decide +kernel)

end VexDB.PgFs
