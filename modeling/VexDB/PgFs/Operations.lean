import VexDB.PgFs.Calls

/-!
# Operations are made of edits

One lemma for each public function other than those on snapshots and the
collection, in the order of the source.  A function that publishes under a batch
of commits opens the batch and closes it again.
-/

namespace VexDB.PgFs

open Storage Tx Manifested PgFs.Tree
open VexFs (Bytes Name Kind DentryKey XattrKey Digest OpenFlags Durability Effect)

variable {H : Type} [DecidableEq H] [Digest H] {α : Type} {id : Nat} {db
  after : Db H} {mode size offset number : Nat} {target source : Bytes}
  {permission : Permission} {env : Env} {inode
  generation : Nat} {path content : Bytes} {request session : String} {staging : Staging} {row :
  Inode} {handle : Handle} {storage : VersionStorage H}

/-! ## Names -/

section

omit [DecidableEq H]

theorem edits_mkdirFrom {parts : List Name} {parent : Nat} {created : Bool} :
    Edits (H := H) mounting batching (mkdirFrom env recursive parent parts created) := by
  induction parts generalizing parent created with
  | nil => exact .pure _
  | cons part parts step =>
    refine .look fun _ => .reads fun found => ?_
    cases found with
    | some => exact .look fun _ => step
    | none =>
      exact .look fun _ => .guard <| .bind edits_insertNode fun _ => .bind edits_touch fun _ => step

theorem edits_mkdir : Edits (H := H) mounting batching (mkdir env path recursive) :=
  .look fun _ => .look fun _ => .reads fun _ => .ite (.pure _) <| .bind edits_mkdirFrom fun _ =>
        .bind (.onlyIf (.discard edits_recordCommit)) fun _ => .pure _

end

theorem edits_create {directory : Bool} :
    Edits (H := H) mounting batching (create env path directory mode) := by
  refine .guard <| .look fun _ => .look fun _ => .look fun _ => .look fun _ => .ite ?_ ?_
  · exact .bind edits_insertNode fun _ => .bind edits_recordCommit fun _ =>
      .bind edits_touch fun _ => .pure _
  · exact .look fun _ => .bind edits_insertNode fun _ =>
      .bind edits_recordCommit fun _ => .bind edits_touch fun _ =>
      (stores_storeManifest none []).traces_bind fun _ =>
        .bind_last edits_insertManifestVersion fun _ => .pure _

section

omit [DecidableEq H]

theorem edits_createEntry {parent : Nat} {aclSet : Option Nat} {entry : BatchEntry} :
    Edits (H := H) mounting batching (createEntry env parent aclSet entry) :=
  .bind (edits_insertInode _) fun _ => .bind edits_insertDentry fun _ => .pure _

theorem edits_createEntryVersion {commit manifest : Nat} (created : BatchEntry × Nat) :
    TracesFrom (Edit (H := H) mounting batching) (Manifested 0 manifest)
      (createEntryVersion env commit manifest created) := by
  unfold createEntryVersion
  split_ifs
  · exact .of_traces (.pure _)
  · exact edits_insertManifestVersion

end

theorem edits_createBatch {parentPath : Bytes} {entries : List BatchEntry} :
    Edits (H := H) mounting batching (createBatch env parentPath entries) := by
  refine .guard <| .guard <| .guard <| .guard <| .look fun _ => .look fun _ =>
    .look fun _ => .look fun _ => .look fun _ => .guard <|
    .bind (.forM _ fun _ _ => .of_readOnly) fun _ => .reads fun _ =>
    .guard <| .bind (edits_inheritedAclSet _) fun _ =>
    .bind (.mapM _ fun _ _ => edits_createEntry) fun inodes => ?_
  unfold batchManifest
  by_cases files : (entries.filter fun entry => !entry.directory).length > 0
  · rw [if_pos files]
    refine (stores_storeManifest none []).traces_bind fun manifest =>
      .bind_keeping (fun _ _ => edit) edits_recordCommit fun commit =>
      .bind_last ?_ fun _ => edits_touch
    exact .forM_keeping _ (fun _ _ => edit) fun created _ =>
      edits_createEntryVersion created
  · rw [if_neg files]
    refine .bind (.pure _) fun _ => .bind edits_recordCommit fun _ =>
      .bind (.forM _ fun created member => ?_) fun _ => edits_touch
    have directory : created.1.directory = true := by
      by_contra file
      exact files (List.length_pos_of_mem (List.mem_filter.2
        ⟨(List.of_mem_zip member).1, by simpa using file⟩))
    unfold createEntryVersion
    rw [if_pos directory]
    exact .pure _

theorem edits_symlink : Edits (H := H) mounting batching (symlink env path target) :=
  .guard <| .look fun _ => .look fun _ => .look fun _ =>
    .look fun _ => .bind edits_insertNode fun _ =>
    (stores_storeManifest none target).traces_bind fun _ =>
      .bind_keeping (fun _ _ => edit) edits_recordCommit fun _ =>
      .bind_last edits_insertManifestVersion fun _ => .bind edits_touch fun _ => .pure _

omit [DecidableEq H] in
theorem edits_link : Edits (H := H) mounting batching (link env source target) :=
  .look fun _ => .look fun _ => .look fun _ => .look fun _ => .guard <| .look fun _ =>
    .look fun _ => .bind edits_insertDentry fun _ =>
    .bind edits_touch fun _ => .bind edits_recordCommit fun _ => .pure _

instance {version : Nat} : ReadOnly (currentManifest inode version : Sql H (Option Nat)) := by
  unfold currentManifest
  infer_instance

theorem edits_writeTarget : Edits (H := H) mounting batching (writeTarget env key size) := by
  refine .reads fun found => ?_
  cases found with
  | some =>
    exact .look fun _ => .guard <| .look fun _ => .look fun _ => .reads fun _ => .look fun _ =>
      .bind edits_advanceInode fun _ => .pure _
  | none =>
    exact .look fun _ => .bind edits_insertNode fun _ => .pure _

theorem edits_write : Edits (H := H) mounting batching (write env path content) :=
  .look fun _ => .look fun _ => .guard <| .look fun _ =>
    .look fun _ => .bind edits_writeTarget fun _ =>
    (stores_storeManifest _ content).traces_bind fun _ =>
      .bind_keeping (fun _ _ => edit) edits_recordCommit fun _ =>
      .bind_last edits_insertManifestVersion fun _ =>
        .bind (edits_onTree fun _ => evolves_updateInode _ _) fun _ =>
        .bind edits_touch fun _ => .pure _

instance : ReadOnly (read env path : Sql H Bytes) := by
  unfold read
  infer_instance

theorem edits_append : Edits (H := H) mounting batching (append env inode content) :=
  .look fun _ => .look fun _ => .look fun _ => .look fun _ =>
    .look fun _ => .look fun _ => edits_write

/-- The version that `resolve_version_storage` finds can be copied. -/
def Backed (inode : Nat) (storage : VersionStorage H) (db : Db H) : Prop :=
  ∃ source, db.store.versions.get (inode, storage.canonicalVersion) = some source ∧
    source.source = none ∧ source.size = storage.size ∧ source.checksum = storage.checksum

omit [DecidableEq H] in
theorem Backed.edit (backed : Backed inode storage db) (edit : Edit mounting batching db after) :
    Backed inode storage after := by
  obtain ⟨source, stored, first, same⟩ := backed
  refine ⟨source, ?_, first, same⟩
  cases edit with
  | content store grows =>
    dsimp only
    rwa [grows.versions]
  | version other number row fresh =>
    dsimp only
    rw [Table.get_set_of_ne]
    · exact stored
    · intro here
      rw [here, fresh] at stored
      cases stored
  | _ => exact stored

omit [Digest H] in
theorem resolveVersionStorage_backed :
    Ensures (fun _ => True)
      (checked fun db : Db H => db.store.resolveVersionStorage inode number) (Backed inode) := by
  intro db storage after _ returned
  obtain ⟨resolved, rfl⟩ := checked_ok.1 returned
  unfold Store.resolveVersionStorage at resolved
  cases stored : after.store.versions.get (inode, number) with
  | none => simp [stored] at resolved
  | some version =>
    rw [stored] at resolved
    obtain ⟨⟨manifest, canonical⟩, found, last⟩ := except_bind_ok.1 resolved
    have shape : storage.canonicalVersion = canonical ∧ storage.size = version.size ∧
        storage.checksum = version.checksum := by
      cases manifest with
      | none => cases last
      | some id =>
        dsimp only at last
        split at last
        · cases last
        · cases last
          exact ⟨rfl, rfl, rfl⟩
    obtain ⟨rfl, size, checksum⟩ := shape
    unfold Store.canonical at found
    cases origin : version.source with
    | none =>
      rw [origin] at found
      cases found
      exact ⟨version, stored, origin, size.symm, checksum.symm⟩
    | some source =>
      rw [origin] at found
      dsimp only at found
      split at found
      · cases found
      · next row looked =>
        split_ifs at found with differs
        cases found
        obtain ⟨sourceStored, first⟩ := Option.filter_eq_some_iff.1 looked
        rw [not_or, not_not, not_not] at differs
        exact ⟨row, sourceStored, by simpa using first, differs.1.trans size.symm,
          differs.2.trans checksum.symm⟩

omit [DecidableEq H] in
theorem edits_insertCopy :
    TracesFrom (Edit mounting batching) (Backed inode storage)
      (insertVersion inode number ⟨commit, none, some storage.canonicalVersion, storage.size,
        storage.checksum, env.now⟩) := by
  rintro _ _ _ ⟨source, stored, first, size, checksum⟩ returned
  have inserted := Tx.attempt_ok.1 returned
  split_ifs at inserted with taken
  cases inserted
  exact .single (.version inode number _ (by simpa using taken)
    (.copy _ source rfl rfl stored first size checksum))

theorem edits_restoreVersion {expected : Nat} :
    Edits (H := H) mounting batching (restoreVersion env path number expected) :=
  .look fun _ => .look fun _ => .look fun _ => .look fun _ => .guard <| .guard <|
    .bind_ensuring .of_readOnly resolveVersionStorage_backed fun _ =>
    .bind_keeping (fun _ _ => .edit) .of_readOnly fun _ =>
    .bind_keeping (fun _ _ => .edit) edits_recordCommit fun _ =>
    .bind_last edits_insertCopy fun _ => .bind edits_advanceInode fun _ => .pure _

section

omit [DecidableEq H]

instance {target : Nat} {error : String} :
    ReadOnly (requireNoCycle inode row target error : Sql H Unit) := by
  unfold requireNoCycle
  infer_instance

theorem edits_touchParents {source target : Nat} :
    Edits (H := H) mounting batching (touchParents env source target) :=
  edits_onTree fun _ => evolves_updateInodes _

theorem edits_move : Edits (H := H) mounting batching (move env source target) :=
  .look fun _ => .look fun _ => .look fun _ => .look fun _ => .look fun _ => .look fun _ =>
    .look fun _ => .ite (.pure _) <| .look fun _ => .look fun _ => .look fun _ =>
    .bind (edits_onTree fun _ => evolves_moveDentry _ _) fun _ =>
    .bind edits_touchParents fun _ => .bind edits_recordCommit fun _ => .pure _

theorem edits_releaseInode {updates : Inode -> Bool} :
    Edits (H := H) mounting batching (releaseInode env inode row updates) := by
  intro _ _ _ returned
  rw [Tx.write_ok.1 returned]
  split_ifs
  · exact .single (.tree _ (evolves_bury _ _))
  · exact .refl

instance {replace : Bool} {target : Nat} {targetRow : Inode} :
    ReadOnly (replaceable replace row target targetRow : Sql H Unit) := by
  unfold replaceable
  infer_instance

theorem edits_deleteDentry :
    Edits (H := H) mounting batching (onTree fun tree => tree.deleteDentry key) :=
  edits_onTree fun _ => evolves_deleteDentry _

theorem edits_dropReplaced {target : Nat} :
    Edits (H := H) mounting batching (dropReplaced env key target row) :=
  .bind edits_deleteDentry fun _ => edits_releaseInode

theorem edits_renameEntry {source target : DentryKey} :
    Edits (H := H) mounting batching (renameEntry env path source target) :=
  .bind (edits_onTree fun _ => evolves_moveDentry _ _) fun _ =>
    .bind edits_touchParents fun _ => .bind edits_recordCommit fun _ => .pure _

theorem edits_rename {replace : Bool} :
    Edits (H := H) mounting batching (rename env source target replace) := by
  refine .look fun _ => .look fun _ => .look fun _ => .look fun _ => .look fun _ => .look fun _ =>
    .ite (.pure _) <| .reads fun found => ?_
  cases found with
  | none => exact .look fun _ => edits_renameEntry
  | some =>
    exact .look fun _ => .ite
      (.bind edits_deleteDentry fun _ => .bind edits_touch fun _ =>
        .bind edits_recordCommit fun _ => .pure _)
      (.look fun _ => .bind edits_dropReplaced fun _ =>
        edits_renameEntry)

theorem edits_removeChecked :
    Edits (H := H) mounting batching (removeChecked env key inode row recursive) :=
  .ite (.write fun _ => .tree _ ((evolves_deleteDentries _).trans (evolves_bury _ _)))
    (.bind edits_deleteDentry fun _ => edits_releaseInode)

theorem edits_remove : Edits (H := H) mounting batching (remove env path recursive) :=
  .look fun _ => .look fun _ => .look fun _ => .look fun _ =>
    .reads fun _ => .guard <| .bind edits_removeChecked fun _ => .bind edits_touch fun _ =>
    .bind edits_recordCommit fun _ => .pure _

/-! ## Metadata -/

instance : ReadOnly (permittedInode env inode permission : Sql H Inode) := by
  unfold permittedInode
  infer_instance

theorem edits_changeAttributes {change : Inode -> Inode} :
    Edits (H := H) mounting batching (changeAttributes inode change) :=
  .bind (edits_onTree fun _ => evolves_updateInode _ _) fun _ =>
    .reads fun _ => .bind edits_recordCommit fun _ => .pure _

theorem edits_setMode : Edits (H := H) mounting batching (setMode env inode mode) :=
  .guard <| .look fun _ => .guard <| edits_changeAttributes

theorem edits_setTimes {times : Times} :
    Edits (H := H) mounting batching (setTimes env inode times) :=
  .guard <| .look fun _ =>
    edits_changeAttributes

theorem edits_chown {uid gid : Option Nat} :
    Edits (H := H) mounting batching (chown env inode uid gid) :=
  .guard <| .look fun _ =>
    edits_changeAttributes

theorem edits_ownerSet {owner : String} :
    Edits (H := H) mounting batching (ownerSet env path owner) :=
  .guard <| .look fun _ => .look fun _ => .look fun _ =>
    .bind (edits_onTree fun _ => evolves_updateInode _ _) fun _ =>
    .bind edits_recordCommit fun _ => .pure _

theorem edits_xattrSet {name : Name} {value : Bytes} {policy : XattrPolicy} :
    Edits (H := H) mounting batching (xattrSet env inode name value policy) := by
  refine .guard <| .look fun _ => .reads fun _ => .guard <| .guard <|
    .bind (edits_onTree fun _ => ?_) fun _ => edits_changeAttributes
  split_ifs
  · exact evolves_deleteXattrs _
  · exact evolves_setXattr _ _

theorem edits_replaceAcl : Edits (H := H) mounting batching (replaceAcl env inode row acl) :=
  .bind edits_getOrCreateAclSet fun _ => .ite (.pure _) edits_changeAttributes

theorem edits_aclSet : Edits (H := H) mounting batching (aclSet env inode acl) :=
  .look fun _ => .look fun _ =>
    edits_replaceAcl

theorem edits_aclGrant {entry : AclEntry} :
    Edits (H := H) mounting batching (aclGrant env inode entry) :=
  .guard <| .look fun _ => .reads fun _ => edits_replaceAcl

theorem edits_aclRevoke {principal : String} {effect : Option Effect} :
    Edits (H := H) mounting batching (aclRevoke env inode principal effect) :=
  .look fun _ => .reads fun _ =>
    .ite (.bind edits_getOrCreateAclSet fun _ => edits_changeAttributes) (.pure _)

theorem edits_aclDelete : Edits (H := H) mounting batching (aclDelete env inode) :=
  .look fun _ => .reads fun _ => .ite (.pure _) edits_changeAttributes

end

/-! ## Handles -/

section

omit [DecidableEq H]

theorem edits_replayGet :
    Edits (H := H) mounting batching (replayGet env request operation arguments) := by
  refine .ite (.pure _) (.reads fun found => ?_)
  cases found with
  | none => exact .pure _
  | some => exact .guard <| .pure _

theorem edits_replayPut {result : ReplayResult} :
    Edits (H := H) True batching (replayPut env request operation arguments result) :=
  .ite (.pure _) <| .guard <| .bind edits_onMounts fun _ =>
    edits_onMounts

theorem edits_onceOnly {body : Sql H ReplayResult} (edits : Edits True batching body) :
    Edits True batching (onceOnly env request operation arguments body) := by
  refine .bind edits_replayGet fun found => ?_
  cases found with
  | some => exact .pure _
  | none => exact .bind edits fun _ => .bind edits_replayPut fun _ => .pure _

instance {inode : Option Nat} :
    ReadOnly (requireHandleInode env permission inode : Sql H Unit) := by
  cases inode <;> unfold requireHandleInode <;> infer_instance

theorem edits_requireHandle : Edits (H := H) True batching (requireHandle env id permission) :=
  .look fun _ => .look fun _ => .bind edits_onMounts fun _ => .pure _

theorem edits_writableHandle : Edits (H := H) True batching (writableHandle env id) :=
  .bind edits_requireHandle fun _ => .guard <| .pure _

instance {session : Option String} : ReadOnly (requireSession env session : Sql H Unit) := by
  cases session <;> unfold requireSession <;> infer_instance

theorem edits_insertHandle : Edits (H := H) True batching (insertHandle env handle staging) :=
  .bind (.attempt_unless fun _ _ => .mounts trivial _) fun _ =>
    .bind (.onlyIf edits_onMounts) fun _ => .pure _

theorem edits_openMissing {flags : OpenFlags} {session : Option String} :
    Edits (H := H) True batching (openMissing env path flags session) :=
  .look fun _ => edits_insertHandle

end

theorem edits_handleOpen {flags : OpenFlags} {session : Option String} :
    Edits (H := H) True batching (handleOpen env path flags request session) := by
  refine .guard <| .guard <| .look fun _ => .look fun _ =>
    edits_onceOnly (.reads fun db => ?_)
  cases db.openTarget env.user path flags.write with
  | ok => exact .bind edits_insertHandle fun _ => .pure _
  | error =>
    exact .ite (.bind edits_openMissing fun _ => .pure _) .of_readOnly

section

omit [DecidableEq H]

theorem edits_handleCreate {session : Option String} :
    Edits (H := H) True batching (handleCreate env path mode request session) :=
  .guard <| .look fun _ => .look fun _ => edits_onceOnly
      (.look fun _ => .look fun _ => .look fun _ => .bind edits_insertHandle fun _ => .pure _)

theorem edits_handleCreateOwned {uid gid : Nat} :
    Edits (H := H) True batching (handleCreateOwned env path mode uid gid request session) :=
  .guard <| .guard <| .guard <| .look fun _ => .look fun _ =>
    edits_onceOnly
      (.look fun _ => .look fun _ => .look fun _ => .bind edits_insertNode fun _ =>
        .bind edits_touch fun _ => .bind edits_insertHandle fun _ => .pure _)

instance : ReadOnly (findStaging id : Sql H Staging) := by
  unfold findStaging
  infer_instance

theorem edits_putStagingChunk {no : Nat} :
    Edits (H := H) True batching (putStagingChunk id no content) := edits_onMounts

end

theorem edits_handleRead {length : Nat} :
    Edits (H := H) True batching (handleRead env id offset length) := by
  refine .guard <| .bind edits_requireHandle fun handle => .guard ?_
  split
  · exact .look fun _ => .ite (.pure _) .of_readOnly
  · exact .of_readOnly

theorem edits_stageChunk {logicalSize : Nat} {no : Nat} :
    Edits (H := H) True batching (stageChunk id logicalSize offset content no) :=
  .ite edits_putStagingChunk (.look fun _ => edits_putStagingChunk)

omit [DecidableEq H] in
theorem edits_advanceStaging {change : Staging -> Staging} :
    Edits (H := H) True batching (advanceStaging env id generation change) :=
  .bind edits_onMounts fun _ => edits_onMounts

theorem edits_handleStageWrite :
    Edits (H := H) True batching (handleStageWrite env id offset content request) :=
  .guard <| .bind edits_writableHandle fun _ =>
    edits_onceOnly (.look fun _ => .ite (.pure _) <| .look fun _ =>
        .bind (.forM _ fun _ _ => edits_stageChunk) fun _ =>
        .bind edits_advanceStaging fun _ => .pure _)

theorem edits_shrinkStaging : Edits (H := H) True batching (shrinkStaging id staging size) :=
  .bind (.onlyIf (.look fun _ => edits_putStagingChunk)) fun _ =>
    edits_onMounts

theorem edits_handleTruncate : Edits (H := H) True batching (handleTruncate env id size request) :=
  .guard <| .bind edits_writableHandle fun _ =>
    edits_onceOnly (.look fun _ => .ite (.pure _) <|
        .look fun _ => .bind (.onlyIf edits_shrinkStaging) fun _ =>
        .bind edits_advanceStaging fun _ => .pure _)

/-! ## Publishing -/

theorem fills_stagingManifestChunk (id : Nat) (staging : Staging) (manifest no : Nat) :
    Fills (H := H) mounting batching manifest (stagingManifestChunk id staging manifest no) := by
  refine .look fun listed => ?_
  split_ifs
  · exact .pure
  · exact .look fun _ => .look fun _ => fills_storeChunk _ _ _ _

omit [DecidableEq H] in
theorem fills_linkBase (id : Nat) (staging : Staging) (manifest : Nat) :
    Fills (H := H) mounting batching manifest (linkBase id staging manifest) := by
  unfold linkBase
  cases staging.baseManifest with
  | none => exact .pure
  | some base => exact fills_linkChunks manifest base _

omit [Digest H] [DecidableEq H] in
instance : ReadOnly (requireBase staging : Sql H Unit) := by
  unfold requireBase
  cases staging.baseManifest <;> infer_instance

theorem stores_storeStagingManifest :
    Stores (H := H) mounting batching (fun db => db.mounts.staging.get id = some staging)
      staging.logicalSize (storeStagingManifest id inode) := by
  intro db manifest after staged returned
  unfold storeStagingManifest findStaging at returned
  simp only [bind_ok, require_ok, rejectIf_ok] at returned
  obtain ⟨_, _, ⟨_, rfl⟩, _, _, ⟨looked, rfl⟩, _, _, ⟨_, rfl⟩, _, db, ⟨small, rfl⟩, _, _,
    based, returned⟩ := returned
  cases staged.symm.trans looked
  obtain rfl := Tx.ReadOnly.same based
  split_ifs at returned with empty
  · rw [empty]
    exact stores_storeManifest _ [] _ manifest after trivial returned
  · exact stores_newManifest (fun manifest => .fill (fills_linkBase id staging manifest)
      (.fill (.forM (fun no => fills_stagingManifestChunk id staging manifest no) _)
        (stores_finishManifest manifest _))) _ manifest after
        (fun _ _ _ => Nat.not_lt.1 small) returned

/-- What is staged for a handle. -/
def Staged (id : Nat) (staging : Staging) (db : Db H) : Prop :=
  db.mounts.staging.get id = some staging

section

omit [DecidableEq H]

theorem Staged.edit (staged : Staged id staging db) (edit : Edit False batching db after) :
    Staged id staging after := by
  cases edit with
  | mounts may => exact may.elim
  | _ => exact staged

theorem Edit.widen (edit : Edit False batching db after) : Edit mounting batching db after := by
  cases edit with
  | mounts may => exact may.elim
  | version inode number row fresh sound => exact .version inode number row fresh sound
  | _ =>
    constructor
    all_goals assumption

end

theorem publishMissing_manifested :
    Reaches (Edit (H := H) False batching) (Staged id staging)
      (publishMissing env id handle staging)
      fun result => Manifested staging.logicalSize result.2.2.1 :=
  .look fun _ => .look fun _ => .look fun _ => .look fun _ =>
    .bind_keeping (fun _ _ => .edit) edits_insertNode fun _ =>
    .bind_keeping (fun _ _ => .edit) edits_touch fun _ =>
    .bind (stores_storeStagingManifest) fun _ => .pure fun _ manifested => manifested

omit [DecidableEq H] in
theorem edits_touchPathParent {path : Option Bytes} :
    Edits (H := H) mounting batching (touchPathParent env path) := by
  cases path with
  | none => exact .pure _
  | some => exact .look fun _ => edits_touch

theorem publishExisting_manifested :
    Reaches (Edit (H := H) False batching) (Staged id staging)
      (publishExisting env id handle staging inode)
      fun result => Manifested staging.logicalSize result.2.2.1 :=
  .bind (stores_storeStagingManifest) fun _ => .look fun _ => .look fun _ => .look fun _ =>
    .look fun _ => .look fun _ =>
    .bind_keeping (fun _ _ => edit) edits_advanceInode fun _ =>
    .bind_keeping (fun _ _ => edit) edits_touchPathParent fun _ =>
    .pure fun _ manifested => manifested

theorem publishTarget_manifested (env : Env) (id : Nat) (handle : Handle) (staging : Staging) :
    Reaches (Edit (H := H) mounting batching) (Staged id staging)
      (publishTarget env id handle staging)
      fun result => Manifested staging.logicalSize result.2.2.1 := by
  suffices narrow : Reaches (Edit (H := H) False batching) (Staged id staging)
      (publishTarget env id handle staging)
      fun result => Manifested staging.logicalSize result.2.2.1 from
    fun db result after staged returned =>
      (narrow db result after staged returned).imp_left
        (.mono (fun _ _ => .widen) _ _)
  unfold publishTarget
  cases handle.inode with
  | none => exact publishMissing_manifested
  | some => exact publishExisting_manifested

omit [DecidableEq H] in
theorem edits_rebaseStaging {version : Nat} {path : Option Bytes} {manifest : Nat} :
    Edits (H := H) True batching
      (rebaseStaging env id inode version generation path manifest size) :=
  .bind edits_onMounts fun _ => .bind edits_onMounts fun _ => edits_onMounts

theorem edits_publishDirty :
    Edits (H := H) True batching (publishDirty env id handle generation) := by
  refine .guard <| .bind_ensuring .of_readOnly
    (fun _ staging _ _ returned => ?_) fun staging =>
    (publishTarget_manifested env id handle staging).bind_from fun _ =>
    .bind_keeping (fun _ _ => edit) edits_recordCommit fun _ =>
    .bind_last edits_insertManifestVersion fun _ => .bind edits_rebaseStaging fun _ => .pure _
  obtain ⟨found, rfl⟩ := Tx.require_ok.1 returned
  exact (Option.filter_eq_some_iff.1 found).1

theorem edits_handlePublish :
    Edits (H := H) True batching (handlePublish env id generation durability request) :=
  .bind edits_writableHandle fun _ => edits_onceOnly
    (.ite (.pure _) (.bind edits_publishDirty fun _ => .pure _))

theorem edits_appendOffset : Edits (H := H) True batching (appendOffset id handle staging) := by
  unfold appendOffset
  cases handle.inode with
  | none => exact .pure _
  | some =>
    exact .guard <| .look fun _ => .look fun _ => .bind edits_onMounts fun _ =>
      .bind edits_onMounts fun _ => .bind edits_onMounts fun _ => .pure _

theorem edits_handleAppend : Edits (H := H) True batching (handleAppend env id content request) :=
  .bind edits_writableHandle fun _ => edits_onceOnly
    (.look fun _ => .bind edits_appendOffset fun _ =>
      .bind edits_handleStageWrite fun _ => edits_handlePublish)

omit [DecidableEq H] in
theorem edits_reap {now : Nat} :
    Edits (H := H) mounting batching (Tx.write fun db => db.reapOrphanInodes now) :=
  .write fun _ => .tree _ (evolves_bury _ _)

theorem edits_handlePublishClose :
    Edits (H := H) True batching (handlePublishClose env id generation durability) :=
  .look fun _ => .ite (.guard <| .pure _) <|
    .bind edits_handlePublish fun _ => .bind edits_onMounts fun _ =>
    .bind edits_reap fun _ => .pure _

theorem edits_mountPublishCloseAll {limit : Nat} :
    Edits (H := H) True True (mountPublishCloseAll env session durability limit) :=
  .guard <| .look fun _ => .look fun _ => .reads fun _ => .ite (.pure _) <|
    .bind (.write fun _ => .batch trivial _) fun _ =>
    .bind (.forM _ fun _ _ => .discard edits_handlePublishClose) fun _ =>
    .bind (.write fun _ => .batch trivial _) fun _ => .pure _

section

omit [DecidableEq H]

instance {claim : Nat × Nat} : ReadOnly (checkClaim env session claim : Sql H _) := by
  unfold checkClaim
  infer_instance

instance {seen : List Nat} {claims : List (Nat × Nat)} :
    ReadOnly (checkClaims env session seen claims : Sql H _) := by
  induction claims generalizing seen with
  | nil => exact inferInstanceAs (ReadOnly (pure []))
  | cons =>
    unfold checkClaims
    infer_instance

end

theorem edits_publishClaim {claim : (Nat × Nat) × Option Nat} :
    Edits (H := H) True batching (publishClaim env durability claim) := by
  unfold publishClaim
  cases claim.2 with
  | some => exact .pure _
  | none => exact edits_handlePublishClose

theorem edits_mountPublishCloseClaimed {claims : List (Nat × Nat)} :
    Edits (H := H) True True (mountPublishCloseClaimed env session durability claims) :=
  .guard <| .guard <| .look fun _ => .look fun _ => .look fun _ =>
    .bind (.onlyIf (.write fun _ => .batch trivial _)) fun _ =>
    .bind (.mapM _ fun _ _ => edits_publishClaim) fun _ =>
    .bind (.onlyIf (.write fun _ => .batch trivial _)) fun _ => .pure _

theorem edits_writeRange {session : Option String} :
    Edits (H := H) True batching (writeRange env path offset content request session durability) :=
  .guard <| .look fun _ => .look fun _ => edits_onceOnly
      (.look fun _ => .look fun _ => .guard <| .look fun _ => .look fun _ => .ite (.pure _) <|
        .look fun _ => .look fun _ =>
        .reads fun _ => (stores_storeManifestRange).traces_bind fun _ =>
          .bind_keeping (fun _ _ => edit) edits_recordCommit fun _ =>
          .bind_last edits_insertManifestVersion fun _ =>
            .bind edits_advanceInode fun _ => .bind edits_touch fun _ => .pure _)

/-! ## Closing and sessions -/

section

omit [DecidableEq H]

theorem edits_handleClose {retain : Bool} :
    Edits (H := H) True batching (handleClose env id retain request) :=
  .look fun _ => edits_onceOnly
    (.ite (.bind edits_onMounts fun _ => .bind edits_reap fun _ => .pure _)
      (.bind edits_onMounts fun _ => .bind edits_reap fun _ => .pure _))

theorem edits_mountSessionStart : Edits (H := H) True batching (mountSessionStart env session) :=
  .guard <| .look fun _ => .bind edits_onMounts fun _ => .bind edits_reap fun _ => .reads fun _ =>
    .guard <| .bind edits_onMounts fun _ => edits_onMounts

theorem edits_mountSessionHeartbeat :
    Edits (H := H) True batching (mountSessionHeartbeat env session) :=
  .look fun _ => .look fun _ =>
    .bind edits_onMounts fun _ => .bind edits_onMounts fun _ => edits_onMounts

theorem edits_mountSessionEnd : Edits (H := H) True batching (mountSessionEnd env session) :=
  .look fun _ => .bind edits_onMounts fun _ => .bind edits_reap fun _ => edits_onMounts

theorem edits_itemReclaim : Edits (H := H) True batching (itemReclaim env request) :=
  .look fun _ => edits_onceOnly
    (.reads fun _ => .bind edits_onMounts fun _ => .bind edits_reap fun _ =>
      .bind edits_onMounts fun _ => .pure _)

end

theorem edits_mountSynchronize {session : Option String} :
    Edits (H := H) True batching (mountSynchronize env request session) :=
  .look fun _ => edits_onceOnly
    (.reads fun _ => .bind (.forM _ fun _ _ => .discard edits_handlePublish) fun _ => .pure _)

/-! ## Settings -/

section

omit [DecidableEq H]

theorem edits_snapshotPolicySet {agentKeep safetyKeep keepDays : Nat} :
    Edits (H := H) mounting batching (snapshotPolicySet env agentKeep safetyKeep keepDays) :=
  .guard <| .guard <| .look fun _ => edits_onWorkspace (fun _ => rfl) fun _ => rfl

theorem edits_quotaSet {maxBytes maxFiles maxFileBytes : Option Nat} :
    Edits (H := H) mounting batching (quotaSet env maxBytes maxFiles maxFileBytes) :=
  .look fun _ => edits_onWorkspace (fun _ => rfl) fun _ => rfl

theorem edits_retentionSet {keepVersions keepDays : Nat} :
    Edits (H := H) mounting batching (retentionSet env keepVersions keepDays) :=
  .guard <| .guard <| .look fun _ => edits_onWorkspace (fun _ => rfl) fun _ => rfl

theorem edits_gcPause {paused : Bool} : Edits (H := H) mounting batching (gcPause env paused) :=
  .look fun _ => edits_onWorkspace (fun _ => rfl) fun _ => rfl

end

/-! ## All of them -/

/-- The operations on snapshots, and the collection. -/
def Op.onHistory : Op -> Bool
  | .snapshotCreate .. | .snapshotDrop .. | .snapshotPrune .. | .snapshotRestore .. | .gc .. => true
  | _ => false

/-- The operations that publish under a batch of commits. -/
def Op.batches : Op -> Bool
  | .mountPublishCloseAll .. | .mountPublishCloseClaimed .. => true
  | _ => false

/-- The operations on files are made of edits. -/
theorem Op.edits (env : Env) (op : Op) (onFiles : op.onHistory = false) :
    Edits (H := H) True (op.batches = true) (op.call env) := by
  cases op with
  | mkdir => exact .discard edits_mkdir
  | create => exact .discard edits_create
  | createBatch => exact edits_createBatch
  | symlink => exact .discard edits_symlink
  | link => exact .discard edits_link
  | write => exact .discard edits_write
  | writeRange => exact .discard edits_writeRange
  | append => exact .discard edits_append
  | restoreVersion => exact .discard edits_restoreVersion
  | move => exact edits_move
  | rename => exact edits_rename
  | remove => exact edits_remove
  | setMode => exact edits_setMode
  | setTimes => exact edits_setTimes
  | chown => exact edits_chown
  | ownerSet => exact edits_ownerSet
  | xattrSet => exact edits_xattrSet
  | aclSet => exact edits_aclSet
  | aclGrant => exact edits_aclGrant
  | aclRevoke => exact edits_aclRevoke
  | aclDelete => exact edits_aclDelete
  | handleOpen => exact .discard edits_handleOpen
  | handleCreate => exact .discard edits_handleCreate
  | handleCreateOwned => exact .discard edits_handleCreateOwned
  | handleStageWrite => exact .discard edits_handleStageWrite
  | handleTruncate => exact .discard edits_handleTruncate
  | handleRead => exact .discard edits_handleRead
  | handlePublish => exact .discard edits_handlePublish
  | handlePublishClose => exact .discard edits_handlePublishClose
  | handleAppend => exact .discard edits_handleAppend
  | handleClose => exact .discard edits_handleClose
  | mountPublishCloseAll =>
    exact .discard (edits_mountPublishCloseAll.mono fun edit => by simpa [Op.batches])
  | mountPublishCloseClaimed =>
    exact .discard (edits_mountPublishCloseClaimed.mono fun edit => by simpa [Op.batches])
  | mountSynchronize => exact .discard edits_mountSynchronize
  | mountSessionStart => exact edits_mountSessionStart
  | mountSessionHeartbeat => exact edits_mountSessionHeartbeat
  | mountSessionEnd => exact edits_mountSessionEnd
  | itemReclaim => exact .discard edits_itemReclaim
  | snapshotPolicySet => exact edits_snapshotPolicySet
  | quotaSet => exact edits_quotaSet
  | retentionSet => exact edits_retentionSet
  | gcPause => exact edits_gcPause
  | elsewhere => exact .write fun _ => .sequences _
  | snapshotCreate | snapshotDrop | snapshotPrune | snapshotRestore | gc =>
    exact absurd onFiles (by simp [Op.onHistory])

end VexDB.PgFs
