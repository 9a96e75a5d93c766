import VexDB.VexFs.StagedPublish
import VexDB.VexFs.Walks

/-!
# Edits of one handle

A handle that has been opened is edited by any sequence of writes, truncations and
publishes.  The same edits of a plain array of bytes give what the handle reads and
what publishing it stores.
-/

namespace VexDB.VexFs

open Storage List Option Tx Program Nat
open Storage.Overlay (fit overwrite)
open Program (exec run_bind_ok run_bind run_exec_error run_bind_eq_ok run_exec_eq_ok)

variable {H : Type} [DecidableEq H] [Digest H] {id : Nat} {env : Env} {request : String} {result :
  RequestResult} {flags : OpenFlags} {db after : Db H} {session : Option String} {workspace :
  String}

/-- An edit of the staged content of a handle; publishing is of what is staged. -/
inductive Edit
  | write (offset : Nat) (patch : Bytes)
  | truncate (size : Nat)
  | publish (env : Env)

/-- What an edit does to an array of bytes; an edit past 128 MiB is refused. -/
def Edit.apply (content : Bytes) : Edit -> Bytes
  | .write offset patch =>
    if offset + patch.length <= maxStagedBytes then overwrite 0 content offset patch else content
  | .truncate size => if size <= maxStagedBytes then fit 0 content size else content
  | .publish _ => content

/-- The statements of an edit, for the handle as it is stored. -/
def Edit.call (id : Nat) : Edit -> Call H Nat
  | .write offset patch => do
    let handle <- exec (findHandle id)
    stageWrite id handle offset patch
  | .truncate size => do
    let handle <- exec (findHandle id)
    truncateStaging id handle size
  | .publish env => do
    let handle <- exec (findHandle id)
    exec (publishHandleInTransaction env id handle handle.dirtyGeneration)

/-- The state after edits of a handle. -/
def runEdits (id : Nat) (edits : List Edit) (db : Db H) : Db H :=
  edits.foldl (fun db edit => ((edit.call id).run db).2) db

/-- The content of a version; version 0 of a file is empty. -/
def Db.VersionHas (db : Db H) (inode version : Nat) (content : Bytes) : Prop :=
  if version = 0 then content = [] else db.readVersionContent inode version = .ok content

/-- A handle on the current version of an inode, with an array of bytes staged.  When
nothing is unpublished, the array is the content of the version. -/
structure Db.Drafts (db : Db H) (id inode : Nat) (handle : Handle) (content : Bytes) : Prop where
  sound : db.Sound
  stored : db.handles.get id = some handle
  owner : handle.inode = inode
  staged : ∃ staging base, db.Staged id inode staging base content
  current : ∃ row, db.inodes.get inode = some row ∧ row.currentVersion = handle.expectedVersion
  ordered : handle.publishedGeneration <= handle.dirtyGeneration
  clean : handle.publishedGeneration = handle.dirtyGeneration ->
    db.VersionHas inode handle.expectedVersion content

section

variable {db : Db H} {id inode : Nat} {handle : Handle} {content : Bytes}

omit [DecidableEq H] [Digest H] in
theorem run_findHandle (stored : db.handles.get id = some handle) :
    (exec (findHandle id) : Call H Handle).run db = (.ok handle, db) :=
  run_require stored

section

variable (drafts : db.Drafts id inode handle content)
include drafts

/-- A change of the staged content that advances the dirty generation. -/
theorem Db.Drafts.edited (edits : db.EditsOnly after id) (sound : after.Sound)
    (staged : after.Staged id inode now base array)
    (handles : after.handles.get id = (db.handles.get id).map fun row =>
      { row with dirtyGeneration := handle.dirtyGeneration + 1 }) :
    after.Drafts id inode { handle with dirtyGeneration := handle.dirtyGeneration + 1 } array where
  sound := sound
  stored := by
    rw [handles, drafts.stored]
    rfl
  owner := drafts.owner
  staged := ⟨now, base, staged⟩
  current := by
    rw [edits.rest]
    exact drafts.current
  ordered := le_succ_of_le drafts.ordered
  clean same := by
    have := drafts.ordered
    dsimp only at same
    omega

theorem Db.Drafts.write (offset : Nat) (patch : Bytes) :
    ∃ now, (runEdits id [.write offset patch] db).Drafts id inode now
      (Edit.apply content (.write offset patch)) := by
  unfold runEdits Edit.call Edit.apply
  rw [foldl_cons, foldl_nil, run_bind_ok (run_findHandle drafts.stored)]
  dsimp only
  by_cases empty : patch = []
  · subst empty
    refine ⟨handle, ?_⟩
    unfold stageWrite
    rw [if_pos rfl, Overlay.overwrite_nil, ite_self]
    exact drafts
  · by_cases bounded : offset + patch.length <= maxStagedBytes
    · obtain ⟨_, _, staged⟩ := drafts.staged
      obtain ⟨_, ran, _, edits, stagedAfter, handles⟩ :=
        run_stageWrite staged handle empty bounded
      have sound := Transitions.sound drafts.sound (traces_stageWrite id handle offset patch db)
      rw [ran] at sound ⊢
      rw [if_pos bounded]
      exact ⟨_, drafts.edited edits sound stagedAfter handles⟩
    · refine ⟨handle, ?_⟩
      unfold stageWrite
      rw [if_neg empty, if_neg bounded, run_bind, run_exec_error]
      · exact drafts
      · exact if_pos (by omega)

theorem Db.Drafts.truncate (size : Nat) :
    ∃ now, (runEdits id [.truncate size] db).Drafts id inode now
      (Edit.apply content (.truncate size)) := by
  obtain ⟨_, _, staged⟩ := drafts.staged
  unfold runEdits Edit.call Edit.apply
  rw [foldl_cons, foldl_nil, run_bind_ok (run_findHandle drafts.stored)]
  dsimp only
  by_cases bounded : size <= maxStagedBytes
  · rw [if_pos bounded]
    by_cases same : size = content.length
    · refine ⟨handle, ?_⟩
      unfold truncateStaging
      rw [run_bind_ok (run_rejectIf (by omega)), run_bind_ok (run_findStaging staged.row)]
      rw [staged.size, if_pos same, same, Overlay.fit_length]
      exact drafts
    · obtain ⟨_, ran, _, edits, stagedAfter, handles⟩ :=
        run_truncateStaging staged handle bounded same
      have sound := Transitions.sound drafts.sound (traces_truncateStaging id handle size db)
      rw [ran] at sound ⊢
      exact ⟨_, drafts.edited edits sound stagedAfter handles⟩
  · refine ⟨handle, ?_⟩
    unfold truncateStaging
    rw [if_neg bounded, run_bind, run_exec_error]
    · exact drafts
    · exact if_pos (by omega)

end

section

variable (drafts : db.Drafts id inode handle content)
include drafts

/-- A publish that succeeds returns a version with the content of the array, and leaves
the array as it is. -/
theorem Db.Drafts.published (separate : DigestsSeparate H content)
    (returned : publishHandleInTransaction env id handle handle.dirtyGeneration db =
      .ok (version, after))
    : after.VersionHas inode version content ∧ ∃ now, after.Drafts id inode now content := by
  obtain ⟨_, _, staged⟩ := drafts.staged
  have soundAfter := Transitions.sound drafts.sound
    (traces_publishHandle env id handle _ db version after returned)
  obtain ⟨_, ⟨stale, rfl, row, found, rfl⟩ | ⟨found, _, _, publishes⟩⟩ :=
    publishHandle_ok.1 returned
  · obtain ⟨_, isCurrent, number⟩ := drafts.current
    rw [drafts.owner] at found
    cases found.symm.trans isCurrent
    refine ⟨?_, handle, drafts⟩
    rw [number]
    exact drafts.clean (le_antisymm drafts.ordered stale)
  · obtain ⟨read, now, stagedAfter, _⟩ :=
      staged.publish drafts.sound separate drafts.owner publishes
    have has : after.VersionHas inode version content := by
      unfold Db.VersionHas
      rw [if_neg (by rw [publishes.number]; exact succ_ne_zero _)]
      exact read
    refine ⟨has, { handle with
      expectedVersion := version, publishedGeneration := handle.dirtyGeneration },
      soundAfter, ?_, drafts.owner, ⟨now, content, stagedAfter⟩, ?_, le_refl _, fun _ => has⟩
    · rw [publishes.get_handles, drafts.stored]
      simp only [map_some, if_true]
    · obtain ⟨row, isCurrent, _⟩ := drafts.current
      rw [publishes.get_inodes, isCurrent, drafts.owner]
      exact ⟨_, rfl, by dsimp only; rw [if_pos rfl]⟩

theorem Db.Drafts.publish (separate : DigestsSeparate H content) (env : Env) :
    ∃ now, (runEdits id [.publish env] db).Drafts id inode now content := by
  unfold runEdits Edit.call
  rw [foldl_cons, foldl_nil, run_bind_ok (run_findHandle drafts.stored)]
  rcases returned : publishHandleInTransaction env id handle handle.dirtyGeneration db with
    _ | ⟨_, _⟩
  · rw [run_exec_error returned]
    exact ⟨handle, drafts⟩
  · rw [run_exec_ok returned]
    exact (drafts.published separate returned).2

end

/-- The array of bytes that edits leave. -/
def editedContent (edits : List Edit) (content : Bytes) : Bytes := edits.foldl Edit.apply content

/-- The digests tell the chunks of a content apart whenever it is published. -/
def PublishesSeparate (H : Type) [Digest H] (edits : List Edit) (content : Bytes) : Prop :=
  ∀ earlier env later, edits = earlier ++ .publish env :: later ->
    DigestsSeparate H (editedContent earlier content)

/-- One edit of the staged content does the same to the array. -/
theorem Db.Drafts.edit (drafts : db.Drafts id inode handle content) (edit : Edit)
    (separate : ∀ env, edit = .publish env -> DigestsSeparate H content) :
    ∃ now, ((edit.call id).run db).2.Drafts id inode now (edit.apply content) := by
  cases edit with
  | write offset patch => exact drafts.write offset patch
  | truncate size => exact drafts.truncate size
  | publish env => exact drafts.publish (separate env rfl) env

/-- Edits of the staged content do the same to the array. -/
theorem Db.Drafts.edits {edits : List Edit} (drafts : db.Drafts id inode handle content)
    (separate : PublishesSeparate H edits content) :
    ∃ now, (runEdits id edits db).Drafts id inode now (editedContent edits content) := by
  induction edits generalizing db handle content with
  | nil => exact ⟨handle, drafts⟩
  | cons edit edits step =>
    obtain ⟨now, next⟩ := drafts.edit edit fun env isPublish =>
      separate [] env edits (by rw [isPublish]; rfl)
    refine step next fun earlier env later split => ?_
    exact separate (edit :: earlier) env later (by rw [split]; rfl)

end

/-! ## Opening a handle -/

omit [Digest H] [DecidableEq H] in
/-- Recording a request changes the requests only. -/
theorem run_storeRequest_frame (request operation : String) (fingerprint : List UInt64)
    (result : RequestResult) (db : Db H) :
    ∃ requests, ((storeRequest request operation fingerprint result : Call H Unit).run db).2 =
      { db with requests := requests } := by
  have traces : Program.Traces (fun before after : Db H =>
      ∃ requests, after = { before with requests := requests })
      (storeRequest request operation fingerprint result : Call H Unit) :=
    storeRequest_traces fun _ requests => ⟨requests, rfl⟩
  generalize ((storeRequest request operation fingerprint result : Call H Unit).run db).2 = after,
    traces db = trace
  induction trace with
  | refl => exact ⟨db.requests, rfl⟩
  | tail _ last kept =>
    obtain ⟨_, same⟩ := kept
    obtain ⟨requests, changed⟩ := last
    rw [same] at changed
    exact ⟨requests, changed⟩

section

omit [DecidableEq H]

/-- A new staging area over a base that is held. -/
theorem staged_new (staged : db.ChunksStaged)
    (isNew : db.staging.get id = none) (size : row.baseSize = base.length)
    (visible : row.baseVisibleSize = base.length) (logical : row.logicalSize = base.length)
    (capacity : row.capacity = 0) (bounded : base.length <= maxStagedBytes)
    (held : base ≠ [] -> ∃ manifest, row.baseManifest = some manifest ∧ 0 < manifest ∧
      db.Holds manifest inode base) :
    ({ db with staging := db.staging.set id row } : Db H).Staged id inode row base base := by
  have clean : ∀ no, db.stagingChunks.get (id, no) = none := by
    intro no
    rw [eq_none_iff_forall_ne_some]
    intro content found
    obtain ⟨_, present⟩ := staged id no content found
    rw [isNew] at present
    cases present
  refine ⟨Table.get_set_self _ _ _, logical, bounded, ⟨size.symm, by omega, by omega, ?_⟩, ?_, ?_⟩
  · intro some_base
    obtain ⟨manifest, named, positive, holds⟩ := held some_base
    exact ⟨manifest, named, positive, holds.row, holds.entry, holds.ends⟩
  · rw [visible, take_length]
    have none_dirty : Db.dirtyChunks { db with staging := db.staging.set id row } id =
        fun _ => none := funext clean
    rw [none_dirty]
    exact Overlay.covers_base base
  · rw [capacity]
    exact Db.dirtyBytes_of_clean clean

/-- A staging area without a base stages nothing. -/
theorem staged_createStaging (inode : Nat) (staged : db.ChunksStaged)
    (created : createStaging id generation db = .ok ((), after)) :
    ∃ staging, after = { db with staging := db.staging.set id staging } ∧
      after.Staged id inode staging [] [] := by
  unfold createStaging at created
  have changed := Tx.attempt_ok.1 created
  split_ifs at changed with taken
  cases changed
  have isNew : db.staging.get id = none := by simpa using taken
  exact ⟨_, rfl, staged_new staged isNew rfl rfl rfl rfl (zero_le _)
    fun some_base => absurd rfl some_base⟩

end

/-- Staging a version stages its content. -/
theorem staged_createStagingFromVersion (sound : db.Sound)
    (staged : db.ChunksStaged) (stored : db.inodes.get node.id = some node.row)
    (live : node.row.live = true) (file : node.row.kind = .file)
    (created : createStagingFromVersion id generation node db = .ok ((), after)) :
    ∃ staging base, after = { db with staging := db.staging.set id staging } ∧
      after.Staged id node.id staging base base ∧
      db.VersionHas node.id node.row.currentVersion base := by
  have current : node.row.currentVersion ≠ 0 -> ∃ version,
      db.versions.get (node.id, node.row.currentVersion) = some version ∧
        version.size = node.row.size := by
    intro written
    have published : node.row.published = true := by
      rw [Inode.published_iff, file]
      exact ⟨nofun, pos_of_ne_zero written⟩
    obtain ⟨version, found⟩ := sound.rows.current node.id node.row stored live published
    exact ⟨version, found, sound.rows.sizes node.id node.row version stored published found⟩
  unfold createStagingFromVersion at created
  split_ifs at created with empty
  · obtain ⟨staging, same, nothing⟩ := staged_createStaging node.id staged created
    refine ⟨staging, [], same, nothing, ?_⟩
    unfold Db.VersionHas
    split_ifs with unwritten
    · rfl
    · obtain ⟨version, found, size⟩ := current unwritten
      obtain ⟨content, read, length⟩ := sound.content.reads found
      rw [size, empty.resolve_left unwritten] at length
      rw [eq_nil_of_length_eq_zero length] at read
      exact read
  · simp only [bind_ok, checked_ok, rejectIf_ok, attempt_ok] at created
    obtain ⟨storage, _, ⟨resolved, rfl⟩, _, db, ⟨size, rfl⟩, changed⟩ := created
    split_ifs at changed with taken
    cases changed
    have isNew : db.staging.get id = none := by simpa using taken
    obtain ⟨version, _, found, isCanonical, named, versionSize, _⟩ :=
      Db.resolveVersionStorage_ok resolved
    obtain ⟨_, _, content, sameCanonical, sameNamed, holds, length, bounded, read⟩ :=
      sound.content.contents found
    cases isCanonical.symm.trans sameCanonical
    cases named.symm.trans sameNamed
    have written : node.row.currentVersion ≠ 0 := fun zero => empty (.inl zero)
    have storageSize : storage.size = content.length := by rw [length, versionSize]
    refine ⟨_, content, rfl, staged_new staged isNew storageSize storageSize storageSize rfl bounded
      fun _ => ⟨storage.manifest, rfl, sound.content.positive _ _ holds.row, holds⟩, ?_⟩
    unfold Db.VersionHas
    rw [if_neg written]
    exact read

omit [Digest H] [DecidableEq H] in
/-- A call with a request id returns a recorded result or carries out its body. -/
theorem run_onceOnly
    (ran : (onceOnly request operation arguments body).run db = (.ok result, after)) :
    after = db ∨ ∃ fingerprint, (body fingerprint).run db = (.ok result, after) := by
  unfold onceOnly at ran
  simp only [run_bind_eq_ok, run_exec_eq_ok, checked_ok] at ran
  obtain ⟨found, _, ⟨_, rfl⟩, rest⟩ := ran
  cases found with
  | some recorded => exact .inl (run_pure_eq_ok.1 rest).2
  | none => exact .inr ⟨_, rest⟩

/-- Opening finds or makes a live node. -/
theorem run_openTarget (ran : (openTarget env parts flags).run db = (.ok node, after)) :
    Changes db after ∧ after.liveNode node.id = some node := by
  have changes := traces_openTarget env parts flags db
  rw [ran] at changes
  refine ⟨changes, ?_⟩
  unfold openTarget at ran
  simp only [run_bind_eq_ok, run_tryResolveSteps] at ran
  obtain ⟨found, _, ⟨_, isFound, rfl⟩, rest⟩ := ran
  cases found with
  | some present =>
    obtain ⟨rfl, rfl⟩ := run_pure_eq_ok.1 rest
    exact tryResolve_live isFound.symm
  | none =>
    simp only [run_bind_eq_ok, run_resolveSteps] at rest
    obtain ⟨_, _, _, _, _, _, resolved, rfl⟩ := rest
    exact tryResolve_live resolved

omit [Digest H] [DecidableEq H] in
theorem insertHandle_ok :
    insertHandle id row db = .ok ((), after) ↔
      db.handles.get id = none ∧ after = { db with handles := db.handles.set id row } := by
  unfold insertHandle
  rw [attempt_ok]
  cases db.handles.get id with
  | some other => simp
  | none => simp [eq_comm]

/-- The row of a handle that is opened on a node. -/
def openedHandle (flags : OpenFlags) (node : Node) (session : Option String) : Handle :=
  ⟨node.id, flags.write, node.row.currentVersion, if flags.truncate then 1 else 0, 0, .opened,
    session⟩

/-- What opening does unless the request was recorded. -/
theorem run_handleOpen (opened : (handleOpen env id workspace path flags request session).run db =
      (.ok result, start)) :
    start = db ∨ ∃ node target between requests, Changes db target ∧
      target.liveNode node.id = some node ∧ node.row.kind = .file ∧ target.handles.get id = none ∧
      (if flags.truncate then createStaging id 1 else createStagingFromVersion id 0 node)
        { target with handles := target.handles.set id (openedHandle flags node session) } =
          .ok ((), between) ∧
      start = { between with requests := requests } := by
  rcases run_onceOnly opened with same | ⟨fingerprint, ran⟩
  · exact .inl same
  right
  simp only [run_bind_eq_ok, run_exec_eq_ok, rejectIf_ok, parsed, checked_ok, not_not] at ran
  obtain ⟨_, _, ⟨_, rfl⟩, _, _, ⟨_, rfl⟩, _, _, ⟨_, rfl⟩, node, _, found, _, target,
    ⟨isFile, rfl⟩, _, between, inserted, rest⟩ := ran
  obtain ⟨changes, live⟩ := run_openTarget found
  obtain ⟨free, rfl⟩ := insertHandle_ok.1 inserted
  have finish : ∀ {stage : Sql H Unit} {state : Db H},
      (exec stage >>= fun _ => storeRequest request "handle_open" fingerprint (.handle id) >>=
        fun _ => pure (.handle id) : Call H RequestResult).run state = (.ok result, start) ->
      ∃ between requests, stage state = .ok ((), between) ∧
        start = { between with requests := requests } := by
    intro _ _ ran
    simp only [run_bind_eq_ok, run_exec_eq_ok] at ran
    obtain ⟨_, between, staged, _, _, recorded, rfl, rfl⟩ := ran
    obtain ⟨requests, same⟩ := run_storeRequest_frame request "handle_open" fingerprint
      (.handle id) between
    rw [recorded] at same
    exact ⟨between, requests, staged, same⟩
  unfold openedHandle
  by_cases truncate : flags.truncate = true
  · simp only [if_pos truncate] at rest ⊢
    obtain ⟨between, requests, staged, same⟩ := finish rest
    exact ⟨node, target, between, requests, changes, live, isFile, free, staged, same⟩
  · simp only [if_neg truncate] at rest ⊢
    obtain ⟨between, requests, staged, same⟩ := finish rest
    exact ⟨node, target, between, requests, changes, live, isFile, free, staged, same⟩

/-- A handle that has just been opened stages the content of the version it names, or
nothing when it was opened for truncation. -/
theorem drafts_handleOpen (sound : db.Sound) (staged : db.ChunksStaged)
    (isNew : db.handles.get id = none)
    (opened : (handleOpen env id workspace path flags request session).run db = (.ok result, start))
    (stored : start.handles.get id = some handle) :
    ∃ base, start.Drafts id handle.inode handle base ∧
      if flags.truncate then base = []
      else start.VersionHas handle.inode handle.expectedVersion base := by
  rcases run_handleOpen opened with rfl | ⟨node, target, between, _, changes, live, isFile,
    _, stage, rfl⟩
  · rw [isNew] at stored
    cases stored
  obtain ⟨_, row, isLive⟩ := liveNode_eq_some.1 live
  have beside := Changes.sameBeside changes
  have targetSound : target.Sound := Transitions.sound sound
    (.mono (fun _ _ => .change) _ _ changes)
  have targetStaged : target.ChunksStaged := by
    intro id no content found
    rw [beside.stagingChunks] at found
    rw [beside.staging]
    exact staged id no content found
  obtain ⟨current, currentIs⟩ : ∃ current : Db H, current =
      { target with handles := target.handles.set id (openedHandle flags node session) } :=
    ⟨_, rfl⟩
  rw [<- currentIs] at stage
  have currentSound : current.Sound := by
    rw [currentIs]
    exact targetSound.besides rfl
  have currentStaged : current.ChunksStaged := by
    rw [currentIs]
    exact targetStaged
  -- Both ways of staging add one row; what they stage differs.
  obtain ⟨staging, base, same, staging_base, version⟩ : ∃ staging base,
      between = { current with staging := current.staging.set id staging } ∧
      between.Staged id node.id staging base base ∧
      if flags.truncate then base = []
      else current.VersionHas node.id node.row.currentVersion base := by
    split_ifs at stage ⊢ with truncate
    · obtain ⟨staging, same, nothing⟩ := staged_createStaging node.id currentStaged stage
      exact ⟨staging, [], same, nothing, rfl⟩
    · exact staged_createStagingFromVersion currentSound currentStaged
        (by rw [currentIs]; exact row) isLive isFile stage
  subst same currentIs
  have isHandle : handle = openedHandle flags node session := by
    rw [Table.get_set_self] at stored
    exact (some.inj stored).symm
  subst isHandle
  refine ⟨base, ⟨?_, stored, rfl, ⟨staging, base, ?_⟩, ⟨node.row, row, rfl⟩, zero_le _, ?_⟩, ?_⟩
  · exact currentSound.besides rfl
  · exact staging_base.keep rfl (fun _ => rfl) fun _ holds => ⟨holds.row, holds.entry, holds.ends⟩
  · intro clean
    unfold openedHandle at clean
    split_ifs at version clean with truncate
    exact version
  · exact version

/-- The staged content of a handle refines a plain array of bytes.  It starts as the content
of the version the handle was opened on; after any writes, truncations and publishes every
range reads as that of the array edited in the same way, and publishing does not find the
stored content corrupt, stores the array and does not change what is read. -/
theorem staging_refines_array {workspace : String} {db start : Db H}
    (reached : Reachable workspace (fun _ _ => True) db) {env : Env} {id : Nat} {path : Bytes}
    {flags : OpenFlags} {request : String} {session : Option String} {result : RequestResult}
    {handle : Handle} (isNew : db.handles.get id = none)
    (opened : (handleOpen env id workspace path flags request session).run db = (.ok result, start))
    (stored : start.handles.get id = some handle) :
    ∃ base, (if flags.truncate then base = []
        else start.VersionHas handle.inode handle.expectedVersion base) ∧
      ∀ edits, PublishesSeparate H edits base ->
        (∀ offset length, offset <= maxStagedBytes -> length <= maxStagedBytes ->
          (runEdits id edits start).readStagingRange id offset length =
            .ok (((editedContent edits base).drop offset).take length)) ∧
        ∃ now, (runEdits id edits start).handles.get id = some now ∧ now.inode = handle.inode ∧
          ∀ env, (∀ error, publishHandleInTransaction env id now now.dirtyGeneration
              (runEdits id edits start) = .error error -> error.code ≠ .corrupt) ∧
            ∀ version published, DigestsSeparate H (editedContent edits base) ->
              publishHandleInTransaction env id now now.dirtyGeneration (runEdits id edits start) =
                .ok (version, published) ->
              published.VersionHas handle.inode version (editedContent edits base) ∧
              ∀ offset length, offset <= maxStagedBytes -> length <= maxStagedBytes ->
                published.readStagingRange id offset length =
                  (runEdits id edits start).readStagingRange id offset length := by
  obtain ⟨base, drafts, content⟩ :=
    drafts_handleOpen reached.sound reached.chunksStaged isNew opened stored
  refine ⟨base, content, fun edits separate => ?_⟩
  obtain ⟨now, edited⟩ := drafts.edits separate
  obtain ⟨_, _, staged⟩ := edited.staged
  refine ⟨fun offset length offsetBounded lengthBounded => staged.reads offsetBounded lengthBounded,
    now, edited.stored, edited.owner, fun env => ⟨?_, ?_⟩⟩
  · exact staged.publish_harmless edited.sound env edited.owner _
  · intro _ published separateNow returned
    obtain ⟨has, _, after⟩ := edited.published separateNow returned
    obtain ⟨_, _, stagedAfter⟩ := after.staged
    refine ⟨has, fun offset length offsetBounded lengthBounded => ?_⟩
    rw [stagedAfter.reads offsetBounded lengthBounded, staged.reads offsetBounded lengthBounded]

/-- A file with three bytes. -/
def writtenTrial : Db Verbatim := trial [.write [47, 102] [1, 2, 3]]

/-- Open the file of `writtenTrial` to read and write. -/
def openWritten : Call Verbatim RequestResult :=
  handleOpen ⟨5000, 0, 0⟩ 7 "work" [47, 102] ⟨true, true, false, false⟩ "" none

theorem digestsSeparate_verbatim (content : Bytes) : DigestsSeparate Verbatim content := by
  intro _ _ same
  have parts := congrArg Verbatim.parts same
  exact (Prod.mk.inj (cons.inj parts).1).2

theorem staging_refines_array_written :
    ∃ base, (openWritten.run writtenTrial).2.VersionHas 2 1 base ∧
      (runEdits 7 [.write 5 [9], .publish ⟨5001, 0, 0⟩, .truncate 4]
        (openWritten.run writtenTrial).2).readStagingRange 7 0 8 =
          .ok (((editedContent [.write 5 [9], .publish ⟨5001, 0, 0⟩, .truncate 4] base).drop 0).take
            8) := by
  obtain ⟨base, version, edited⟩ := staging_refines_array (reachable_trial [.write [47, 102]
      [1, 2, 3]]) (by decide +kernel)
    (Prod.ext (by decide +kernel) rfl : openWritten.run writtenTrial = (.ok (.handle 7), _))
    (by decide +kernel : _ = some ⟨2, true, 1, 0, 0, .opened, none⟩)
  exact ⟨base, version, (edited _ fun _ _ _ _ => digestsSeparate_verbatim _).1 0 8 (zero_le _)
    (by decide)⟩

end VexDB.VexFs
