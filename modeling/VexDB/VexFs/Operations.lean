import VexDB.VexFs.Changes

/-!
# Every operation is a sequence of changes

One lemma for each function of the source that changes the tables, and from them
the statement for all operations.
-/

namespace VexDB.VexFs

open Storage Option Table Nat Tx Db List
open Program (exec savepoint Traces ignore)
open Tx (write_ok bind_ok rejectIf_ok ReadOnly)
open Relation (ReflTransGen)

variable {H : Type} [DecidableEq H] [Digest H] {id : Nat} {expected mode offset
  commit : Nat} {content suffix patch : Bytes} {left right : Db H} {env :
  Env} {db after : Db H} {inode generation : Nat} {request name workspace : String} {parts : List
  Name} {step : Db H -> Db H → Prop} {type : SnapshotType} {α : Type}

/-! ## The namespace -/

theorem traces_walkSteps (node : Node) (parts : List Name) :
    Traces Change (walkSteps node parts : Call H (Option Node)) := by
  induction parts generalizing node with
  | nil => exact .pure _
  | cons part parts step =>
    refine .ite (.reads fun found => ?_) (.pure _)
    cases found with
    | none => exact .pure _
    | some child => exact step child

theorem traces_tryResolveSteps (parts : List Name) :
    Traces Change (tryResolveSteps parts : Call H (Option Node)) :=
  .look fun root => traces_walkSteps root parts

theorem traces_fail {error : SqlError} : Traces Change (exec (fail error) : Call H α) :=
  .exec .of_readOnly

theorem traces_resolveSteps (parts : List Name) :
    Traces Change (resolveSteps parts : Call H Node) := by
  refine .bind (traces_tryResolveSteps parts) fun found => ?_
  cases found with
  | none => exact traces_fail
  | some => exact .pure _

theorem traces_resolveParentSteps (parts : List Name) :
    Traces Change (resolveParentSteps parts : Call H (Node × Name)) := by
  unfold resolveParentSteps
  cases parts.getLast? with
  | none => exact traces_fail
  | some => exact .bind (traces_resolveSteps _) fun _ => .guard <| .pure _

theorem traces_mkdirSteps (env : Env) (node : Node) (changed : Bool) (parts : List Name) :
    Traces Change (mkdirSteps env node changed parts : Call H (Node × Bool)) := by
  induction parts generalizing node changed with
  | nil => exact .pure _
  | cons part parts step =>
    refine .reads fun found => ?_
    cases found with
    | some child => exact .guard <| step child changed
    | none =>
      refine .call (traces_createInode nofun) fun inode => ?_
      refine .call traces_insertDentry fun _ => ?_
      refine .bind (.exec ?_) fun _ => .bind (.exec ?_) fun _ => step _ true
      · intro db _ _ returned
        rw [write_ok.1 returned]
        exact changes_inheritAcl db _ _
      · exact .write fun db => .touchDirectory env _

theorem traces_mkdir : Traces Change (mkdir env parts : Call H Nat) := by
  refine .look fun root => ?_
  refine .bind (traces_mkdirSteps env root false parts) fun reached => ?_
  exact .ite (.call (traces_commit env) fun _ => .pure _) (.pure _)

theorem changes_tombstone (db : Db H) (env : Env) (node : Node) :
    Change db (db.tombstone env node) := by
  unfold tombstone
  split_ifs
  all_goals
    apply Change.tombstone
    intro _ _ _ changed
    split_ifs at changed
    exact ⟨_, (some.inj changed).symm⟩

theorem traces_replaceExisting {source : Node} {key : DentryKey} {replace : Bool}
    {existing : Node} :
    Traces Change (replaceExisting env source key replace existing : Call H Unit) := by
  refine .guard <| .guard <| .ite (.reads fun _ => .guard ?_) ?_
  all_goals
    exact .call (.write fun db => .deleteDentry key) fun _ =>
      .exec (.write fun db => changes_tombstone db env existing)

omit [DecidableEq H] [Digest H] in
theorem moveDentry_ok {source target : DentryKey} :
    moveDentry source target db = .ok (nothing, after) ↔
      (source = target ∨ db.dentries.get source = none ∨ db.dentries.get target = none) ∧
        after = db.moveDentry source target := by
  unfold moveDentry
  rw [attempt_ok]
  split_ifs with taken
  · obtain ⟨present, different, held⟩ := taken
    constructor
    · intro failed
      cases failed
    · rintro ⟨same | absent | free, _⟩
      · exact absurd same different
      · rw [absent] at present
        cases present
      · rw [free] at held
        cases held
  · rw [Except.ok.injEq]
    constructor
    · rintro rfl
      refine ⟨?_, rfl⟩
      by_contra blocked
      push Not at blocked
      exact taken ⟨isSome_iff_ne_none.2 blocked.2.1, blocked.1,
        isSome_iff_ne_none.2 blocked.2.2⟩
    · rintro ⟨_, rfl⟩
      rfl

theorem traces_moveDentry {source target : DentryKey} :
    Tx.Traces Change (moveDentry source target : Sql H Unit) := by
  intro _ _ _ returned
  obtain ⟨free, rfl⟩ := moveDentry_ok.1 returned
  exact .single (.moveDentry source target free)

theorem traces_touchDirectory :
    Traces Change (exec (Tx.write fun db => db.touchDirectory env inode) : Call H Unit) :=
  .exec (.write fun _ => .touchDirectory env inode)

theorem traces_rename {source destination : List Name} {replace : Bool} :
    Traces Change (rename env source destination replace : Call H Unit) := by
  refine .ite (.pure _) ?_
  cases renameRefusal source destination with
  | some => exact traces_fail
  | none =>
    refine .bind (traces_resolveParentSteps source) fun origin => ?_
    refine .reads fun found => ?_
    cases found with
    | none => exact traces_fail
    | some =>
      refine .bind (traces_resolveParentSteps destination) fun place => ?_
      refine .reads fun existing => ?_
      cases existing
      case' some => refine .bind traces_replaceExisting fun _ => ?_
      all_goals
        refine .call traces_moveDentry fun _ => .bind traces_touchDirectory fun _ => ?_
        refine .ite (.bind traces_touchDirectory fun _ => ?_) ?_
        all_goals exact .call (traces_commit env) fun _ => .pure _

theorem traces_remove {recursive : Bool} :
    Traces Change (remove env parts recursive : Call H Unit) := by
  refine .ite traces_fail (.bind (traces_resolveParentSteps parts) fun place => ?_)
  refine .reads fun found => ?_
  cases found with
  | none => exact traces_fail
  | some node =>
    refine .ite (.reads fun _ => .guard ?_) ?_
    all_goals
      exact .call (.write fun db => .deleteDentry _) fun _ =>
        .call (.write fun db => changes_tombstone db env node) fun _ =>
          .bind traces_touchDirectory fun _ => .call (traces_commit env) fun _ => .pure _

/-! ## Files -/

theorem traces_create {kind : Kind} :
    Tx.Traces Change (create env parts kind mode : Sql H Nat) := by
  refine .guard <| .guard ?_
  intro _ inode _ returned
  obtain ⟨_, _, accepted, rest⟩ := bind_ok.1 returned
  obtain ⟨supported, rfl⟩ := rejectIf_ok.1 accepted
  have notLink : kind ≠ .symlink := by
    rintro rfl
    exact supported ⟨nofun, nofun⟩
  refine Tx.Traces.look (fun place => ?_) _ _ _ rest
  refine .bind (traces_createInode notLink) fun inode => .bind traces_addDentry fun _ => ?_
  refine .ite ?_ ?_
  · exact .bind (traces_storeVersion env inode 0 [] (zero_le _)) fun _ => .pure _
  · exact .bind (traces_commit env) fun _ => .pure _

theorem traces_symlink {target : Bytes} :
    Tx.Traces Change (symlink env parts target : Sql H Nat) := by
  intro _ _ _ returned
  unfold symlink at returned
  simp only [bind_ok, rejectIf_ok, Prod.exists, freeName_ok, createInode_ok, addDentry_ok,
    storeVersion_ok] at returned
  obtain ⟨_, _, ⟨_, rfl⟩, _, _, ⟨_, rfl⟩, _, _, ⟨short, rfl⟩, _, _, ⟨_, rfl⟩, parent, name, _,
    ⟨_, rfl⟩, _, _, ⟨admitted, rfl, rfl⟩, _, _, ⟨free, rfl⟩, _, _, ⟨_, unused, previous, storable,
    rfl⟩, _, rfl⟩ := returned
  have noPrevious : previous = none := storable.previous
  subst noPrevious
  have bounded : target.length <= maxStagedBytes :=
    (le_of_not_gt short).trans (by decide)
  rw [versions_addedDentry] at unused
  exact .single (.symlink env parent.id name target admitted free storable unused bounded)

theorem traces_hardlink {source destination : List Name} :
    Tx.Traces Change (hardlink env source destination : Sql H Nat) :=
  .guard <| .look fun _ => .guard <| .look fun _ =>
      .bind traces_addDentry fun _ => .bind (traces_commit env) fun _ => .pure _

theorem traces_writeTarget {parent : Node} {name : Name} :
    Tx.Traces Change (writeTarget env parent name : Sql H (Nat × Nat)) := by
  refine .reads fun found => ?_
  cases found with
  | some => exact .guard <| .pure _
  | none =>
    exact .bind (traces_createInode nofun) fun _ =>
      .bind traces_addDentry fun _ => .pure _

theorem traces_writePath (env : Env) (parts : List Name) (content : Bytes)
    (bounded : content.length <= maxStagedBytes) :
    Tx.Traces Change (writePath env parts content : Sql H Nat) :=
  .look fun _ => .bind traces_writeTarget fun _ =>
    traces_storeVersion env _ _ content bounded

theorem traces_write : Tx.Traces Change (write env parts content : Sql H Nat) := by
  intro _ _ _ returned
  obtain ⟨_, _, accepted, rest⟩ := bind_ok.1 returned
  obtain ⟨short, rfl⟩ := rejectIf_ok.1 accepted
  exact traces_writePath env parts content (le_of_not_gt short) _ _ _ rest

theorem traces_restoreVersion {target : Nat} :
    Tx.Traces Change (restoreVersion env parts target expected : Sql H Nat) := by
  refine .look fun node => .guard <| .guard <| .guard <| .guard ?_
  intro _ _ _ returned
  obtain ⟨_, free, source, resolved, admitted, current, rfl⟩ :=
    storeVersionFromVersion_ok.1 returned
  exact .single (.aliasVersion env node.id _ target source resolved admitted current free)

/-- The bytes that a run over chunks returns end where it stops. -/
theorem readChunks_length {size : Nat} {rows : List (Nat × Chunk H)} {sums : List (Nat × H)}
    {count total : Nat}
    (read : readChunks size expected offset rows = .ok (content, sums, count, total)) :
    offset + content.length = total := by
  induction rows generalizing expected offset content sums count total with
  | nil =>
    obtain ⟨rfl, _, _, rfl⟩ : content = [] ∧ sums = [] ∧ count = expected ∧ total = offset := by
      simpa [readChunks, eq_comm] using read
    rfl
  | cons row rows step =>
    obtain ⟨_, chunk⟩ := row
    unfold readChunks at read
    dsimp only at read
    split_ifs at read with intact
    cases rest : readChunks size (expected + 1)
        (offset + min contentChunkBytes (size - offset)) rows with
    | error error =>
      rw [rest] at read
      cases read
    | ok result =>
      obtain ⟨others, otherSums, otherCount, otherTotal⟩ := result
      rw [rest] at read
      obtain ⟨rfl, _, _, rfl⟩ : chunk.content ++ _ = _ ∧
          (min contentChunkBytes (size - offset), chunk.checksum) :: otherSums = sums ∧
          otherCount = count ∧ otherTotal = total := by
        simpa [bind, Except.bind, pure, Except.pure] using read
      have := step rest
      rw [length_append, intact.2.2.2.1]
      omega

omit [Digest H] in
theorem resolveVersionStorage_size {number : Nat} {storage : VersionStorage H}
    (resolved : db.resolveVersionStorage inode number = .ok storage) :
    ∃ version, db.versions.get (inode, number) = some version ∧ version.size = storage.size := by
  unfold resolveVersionStorage at resolved
  split at resolved
  · cases resolved
  · rename_i version found
    refine ⟨version, found, ?_⟩
    dsimp only at resolved
    split at resolved
    · cases resolved
    · split at resolved
      · cases resolved
      · split at resolved
        · cases resolved
        · split_ifs at resolved
          rw [<- Except.ok.inj resolved]

theorem readVersionContent_length {number : Nat}
    (read : db.readVersionContent inode number = .ok content) :
    ∃ version, db.versions.get (inode, number) = some version ∧
      version.size = content.length := by
  unfold readVersionContent at read
  cases resolved : db.resolveVersionStorage inode number with
  | error =>
    rw [resolved] at read
    exact absurd read (by simp [bind, Except.bind])
  | ok storage =>
    rw [resolved] at read
    cases chunks : readChunks storage.size 0 0 (db.manifestRows storage.manifest) with
    | error =>
      simp only [bind, Except.bind, chunks] at read
      cases read
    | ok result =>
      simp only [bind, Except.bind, chunks] at read
      split_ifs at read with whole
      cases read
      obtain ⟨version, found, _⟩ := resolveVersionStorage_size resolved
      have := readChunks_length chunks
      exact ⟨version, found, by omega⟩

theorem traces_append : Tx.Traces Change (append env inode suffix : Sql H Nat) := by
  intro _ _ _ returned
  unfold append at returned
  simp only [bind_ok, nodeById_ok, rejectIf_ok, checked_ok] at returned
  obtain ⟨node, _, ⟨⟨rfl, found⟩, rfl⟩, _, _, ⟨file, rfl⟩, _, _, ⟨_, rfl⟩, _, _,
    ⟨read, rfl⟩, stored⟩ := returned
  refine changes_storeVersion (fun agree => ?_) stored
  rw [length_append]
  unfold readNode at read
  split_ifs at read with unwritten
  · cases read
    rw [length_nil]
    omega
  · obtain ⟨version, stored, _⟩ := readVersionContent_length read
    have published : node.row.published = true := by
      simp only [Inode.published, Bool.and_eq_true, decide_eq_true_eq]
      refine ⟨?_, Nat.pos_of_ne_zero unwritten⟩
      rw [not_not.1 file]
      exact Kind.noConfusion
    have := agree node.id node.row version found published stored
    omega

/-! ## Attributes -/

instance : ReadOnly (requireWorkspaceInode inode : Sql H Unit) := by
  unfold requireWorkspaceInode
  infer_instance

theorem traces_setMode : Tx.Traces Change (setMode env inode mode : Sql H Unit) := by
  refine .guard <| .look fun _ => .guard <|
    .ite (.bind (.write fun db => ?_) fun _ => traces_commitMetadata env inode) (.pure _)
  exact .updateInodeIf inode _ _ fun _ _ => ⟨rfl, rfl, rfl, fun _ => rfl, le_refl _⟩

theorem traces_setTimes {times : Times} :
    Tx.Traces Change (setTimes env inode times : Sql H Unit) := by
  refine .guard <| .look fun _ => .reads fun _ => .guard <|
      .bind (.write fun db => ?_) fun _ => traces_commitMetadata env inode
  exact .updateInodeIf inode _ _ fun _ _ => ⟨rfl, rfl, rfl, fun _ => rfl, le_refl _⟩

theorem traces_chown {uid gid : Option Nat} :
    Tx.Traces Change (chown env inode uid gid : Sql H Unit) := by
  refine .guard <| .guard <| .look fun _ =>
      .bind (.write fun db => ?_) fun _ => traces_commitMetadata env inode
  exact .updateInodeIf inode _ _ fun _ _ => ⟨rfl, rfl, rfl, fun _ => rfl, le_refl _⟩

theorem traces_ownerSet {owner : String} :
    Tx.Traces Change (ownerSet env parts owner : Sql H Unit) := by
  refine .guard <| .look fun node =>
    .bind (.write fun db => ?_) fun _ => traces_commitMetadata env _
  exact .updateInodeIf node.id _ _ fun _ _ => ⟨rfl, rfl, rfl, fun _ => rfl, le_refl _⟩

theorem traces_insertAcl {key : AclKey} {row : AclRow} :
    Tx.Traces Change (insertAcl key row : Sql H Unit) :=
  .attempt_unless fun _ _ => .setAcl key row

theorem traces_aclSet {entries : List AclEntry} :
    Tx.Traces Change (aclSet env inode entries : Sql H Unit) := by
  refine .look fun _ => ?_
  refine .bind (.forM entries fun entry _ => ?_) fun _ => ?_
  · exact .guard <| .guard .of_readOnly
  · refine .guard <| .bind (.write fun db => .deleteAcl _) fun _ => ?_
    refine .bind (.forM entries fun entry _ => traces_insertAcl) fun _ => ?_
    exact .bind (.write fun db => .touchInode env inode) fun _ => traces_commitMetadata env inode

theorem traces_removeAcl {condition : AclKey -> Bool} :
    Tx.Traces Change (removeAcl env inode condition : Sql H Unit) :=
  .look fun _ => .reads fun _ =>
    .bind (.write fun _ => .deleteAcl _) fun _ => .ite (traces_commitMetadata env inode) (.pure _)

theorem traces_aclGrant {principal permissions : String} {effect : Effect} :
    Tx.Traces Change (aclGrant env inode principal permissions effect : Sql H Unit) :=
  .guard <| .look fun _ =>
    .bind (.write fun _ => .setAcl _ _) fun _ => traces_commitMetadata env inode

theorem traces_setXattr {name : Name} {value : Bytes} {policy : XattrPolicy} :
    Tx.Traces Change (setXattr env inode name value policy : Sql H Unit) := by
  refine .guard ?_
  intro db _ _ returned
  obtain ⟨_, _, required, rest⟩ := bind_ok.1 returned
  unfold requireWorkspaceInode at required
  simp only [bind_ok, require_ok] at required
  obtain ⟨row, _, ⟨known, rfl⟩, _, rfl⟩ := required
  simp only [bind_ok, rejectIf_ok] at rest
  obtain ⟨_, _, ⟨rfl, rfl⟩, _, _, ⟨_, rfl⟩, _, _, ⟨_, rfl⟩, rest⟩ := rest
  have finish : Tx.Traces Change (do
      Tx.write fun db => db.touchInode env inode
      commitMetadataChange env inode : Sql H Unit) :=
    .bind (.write fun db => .touchInode env inode) fun _ => traces_commitMetadata env inode
  split_ifs at rest
  · exact (Tx.Traces.bind (.write fun db => .deleteXattrs _) fun _ => finish) _ _ _ rest
  · simp only [bind_ok, rejectIf_ok, write_ok] at rest
    obtain ⟨_, _, ⟨_, rfl⟩, _, _, rfl, rest⟩ := rest
    exact .head (.setXattr (inode, name) value ⟨row, known⟩)
      (finish _ _ _ (by simp only [bind_ok, write_ok]; exact rest))

/-! ## Handles -/

instance {path : Bytes} : ReadOnly (parsed path : Sql H (List Name)) := by
  unfold parsed
  infer_instance

instance : ReadOnly (findHandle id : Sql H Handle) := by
  unfold findHandle
  infer_instance

instance : ReadOnly (findStaging id : Sql H Staging) := by
  unfold findStaging
  infer_instance

omit [Digest H] [DecidableEq H] in
/-- Recording a request changes the requests only. -/
theorem storeRequest_traces {step : Db H -> Db H -> Prop}
    (records : ∀ db requests, step db { db with requests := requests })
    {operation : String} {fingerprint : List UInt64} {result : RequestResult} :
    Traces step (storeRequest request operation fingerprint result) := by
  refine .ite (.pure _) (.bind (.exec ?_) fun rowid => .exec (.write fun db => ?_))
  · exact .reads fun _ => .guard <| .reads fun _ =>
      .bind (.write fun db => records db _) fun _ => .pure _
  · unfold pruneRequests
    split_ifs
    · exact records db db.requests
    · exact records db _

theorem traces_storeRequest {operation : String} {fingerprint : List UInt64}
    {result : RequestResult} :
    Traces Transition (storeRequest request operation fingerprint result : Call H Unit) :=
  storeRequest_traces fun _ _ => .beside rfl fun staged => staged

section

omit [DecidableEq H] [Digest H]

variable {body : List UInt64 -> Call H RequestResult}

/-- A call that looks for its request first makes the steps of its body. -/
theorem traces_onceOnly_at (request operation : String) (arguments : List Bytes)
    (traces : ∀ fingerprint, ReflTransGen step db ((body fingerprint).run db).2) :
    ReflTransGen step db ((onceOnly request operation arguments body).run db).2 := by
  apply Traces.bind_at
  · exact Traces.exec .of_readOnly db
  · intro found _ looked
    obtain ⟨_, rfl⟩ := checked_ok.1 (Program.run_exec_eq_ok.1 looked)
    cases found with
    | some => exact .refl
    | none => exact traces _

theorem traces_onceOnly (request operation : String) (arguments : List Bytes)
    (traces : ∀ fingerprint, Traces step (body fingerprint)) :
    Traces step (onceOnly request operation arguments body) :=
  fun db => traces_onceOnly_at request operation arguments fun fingerprint => traces fingerprint db

end

theorem traces_insertHandle {row : Handle} :
    Tx.Traces Transition (insertHandle id row : Sql H Unit) :=
  .attempt_unless fun _ _ => .beside rfl fun staged => staged

theorem Transition.newStaging (db : Db H) (id : Nat) (row : Staging) :
    Transition db { db with staging := db.staging.set id row } := by
  refine .beside rfl fun staged => staged.drop fun other no content found => ⟨found, ?_⟩
  intro before stored
  by_cases same : other = id
  · exact ⟨row, by rw [same, get_set_self]⟩
  · exact ⟨before, by rw [get_set_of_ne _ _ same]; exact stored⟩

theorem traces_createStaging : Tx.Traces Transition (createStaging id generation : Sql H Unit) :=
  .attempt_unless fun db _ => .newStaging db id _

theorem traces_createStagingFromVersion {node : Node} :
    Tx.Traces Transition (createStagingFromVersion id generation node : Sql H Unit) :=
  .ite traces_createStaging <| .look fun _ => .guard <|
    .attempt_unless fun db _ => .newStaging db id _

theorem traces_createHandle :
    Tx.Traces Transition (createHandle env id parts mode owner session : Sql H Unit) := by
  refine .look fun place =>
    .bind ((traces_createInode Kind.noConfusion).mono .change) fun inode => ?_
  cases owner
  case' some owner =>
    refine .bind (.write fun db => .change (.updateInodeIf inode _ _ fun _ _ =>
      ⟨rfl, rfl, rfl, fun _ => rfl, le_refl _⟩)) fun _ => ?_
  all_goals
    exact .bind (traces_addDentry.mono .change) fun _ => .bind traces_insertHandle fun _ =>
      traces_createStaging

theorem traces_handleCreate {path : Bytes} :
    Traces Transition
      (handleCreate env id workspace path mode owner request session : Call H RequestResult) := by
  refine .guard <| traces_onceOnly _ _ _ fun fingerprint => ?_
  refine .look fun parts => .guard ?_
  exact .call (Traces.savepoint (.call traces_createHandle fun _ =>
    traces_storeRequest)) fun _ => .pure _

theorem traces_openTarget (env : Env) (parts : List Name) (flags : OpenFlags) :
    Traces Change (openTarget env parts flags : Call H Node) := by
  refine .bind (traces_tryResolveSteps parts) fun found => ?_
  cases found with
  | some => exact .pure _
  | none =>
    exact .guard <|
      .call (traces_writePath env parts [] (zero_le _)) fun _ => traces_resolveSteps parts

theorem traces_handleOpen {path : Bytes} {flags : OpenFlags} :
    Traces Transition
      (handleOpen env id workspace path flags request session : Call H RequestResult) := by
  refine traces_onceOnly _ _ _ fun fingerprint => ?_
  refine .guard <| .guard <| .look fun parts =>
      .bind ((traces_openTarget env parts flags).mono .change) fun node =>
        .guard <| .call traces_insertHandle fun _ => ?_
  refine .ite (.call traces_createStaging fun _ => ?_)
    (.call traces_createStagingFromVersion fun _ => ?_)
  all_goals exact .bind traces_storeRequest fun _ => .pure _

theorem traces_writableHandle (id : Nat) : Traces Transition (writableHandle id : Call H Handle) :=
  .look fun _ => .guard <| .guard <| .pure _

/-- A change beside the file system that keeps every staging area. -/
theorem Transition.of_kept (same : db.besides after)
    (staging : ∀ id row, db.staging.get id = some row -> ∃ now, after.staging.get id = some now)
    (chunks : ∀ id no content, after.stagingChunks.get (id, no) = some content ->
      db.stagingChunks.get (id, no) = some content) : Transition db after :=
  .beside same fun staged => staged.drop fun id no content found =>
    ⟨chunks id no content found, staging id⟩

theorem Transition.updateStaging (db : Db H) (id : Nat) (change : Staging -> Staging) :
    Transition db (db.updateStaging id change) := by
  refine .of_kept rfl (fun other row stored => ?_) fun _ _ _ found => found
  change ∃ now, (db.staging.update _).get other = some now
  rw [get_update, stored]
  exact ⟨_, rfl⟩

theorem Transition.dropChunks (db : Db H) (keep : Nat × Nat -> Bytes -> Bool) :
    Transition db { db with stagingChunks := db.stagingChunks.filter keep } :=
  .of_kept rfl (fun _ row stored => ⟨row, stored⟩) fun id no _ found =>
    (filter_eq_some_iff.1 ((Table.get_filter _ keep (id, no)).symm.trans found)).1

theorem Transition.dropStaging (db : Db H) (handles : Table Nat Handle) (condition : Nat -> Bool) :
    Transition db ({ db with handles := handles }.dropStaging condition) := by
  refine .beside rfl fun staged => staged.drop fun id no content found => ?_
  obtain ⟨stored, kept⟩ := filter_eq_some_iff.1 ((Table.get_filter _ _ (id, no)).symm.trans found)
  refine ⟨stored, fun row present => ⟨row, ?_⟩⟩
  exact (get_filter_of_kept _ fun _ => kept).trans present

theorem Transition.dropStagingOf (db : Db H) (id : Nat) :
    Transition db { db with
      stagingChunks := db.stagingChunks.filter fun key _ => key.1 ≠ id
      staging := db.staging.filter fun other _ => other ≠ id } := by
  refine .beside rfl fun staged => staged.drop fun other no content found => ?_
  obtain ⟨stored, kept⟩ := filter_eq_some_iff.1
    ((Table.get_filter _ _ (other, no)).symm.trans found)
  refine ⟨stored, fun row present => ⟨row, ?_⟩⟩
  exact (get_filter_of_kept _ fun _ => kept).trans present

theorem traces_updateHandle (id : Nat) {change : Handle -> Handle} :
    Tx.Traces Transition (Tx.write fun db => db.updateHandle id change : Sql H Unit) :=
  traces_besides fun _ => ⟨rfl, rfl, rfl⟩

/-- A dirty chunk is stored; when its staging area exists this is a transition. -/
def StoresChunk (id : Nat) (db after : Db H) : Prop :=
  after.staging = db.staging ∧ ((∃ row, db.staging.get id = some row) -> Transition db after)

theorem StoresChunk.transitions (trace : ReflTransGen (StoresChunk id) db after)
    {row : Staging} (stored : db.staging.get id = some row) :
    Transitions db after ∧ after.staging.get id = some row := by
  induction trace with
  | refl => exact ⟨.refl, stored⟩
  | tail _ last reached =>
    obtain ⟨transitions, present⟩ := reached
    exact ⟨transitions.tail (last.2 ⟨row, present⟩), last.1 ▸ present⟩

theorem stores_storeDirtyChunk {no : Nat} :
    Tx.Traces (StoresChunk id) (storeDirtyChunk id no content : Sql H Unit) := by
  refine .guard <| .write fun db => ⟨rfl, fun present => ?_⟩
  refine .beside rfl fun staged other number bytes found => ?_
  rw [get_set] at found
  split_ifs at found with same
  · cases same
    exact present
  · exact staged other number bytes found

theorem stores_stageChunk {staging : Staging} {logicalSize : Nat} {no : Nat} :
    Traces (StoresChunk id) (stageChunk id staging logicalSize offset patch no : Call H Int) :=
  .ite (.reads fun _ => .call (stores_storeDirtyChunk) fun _ => .pure _)
    (.look fun _ => .call (stores_storeDirtyChunk) fun _ => .pure _)

theorem stores_stageChunks {staging : Staging} {logicalSize : Nat} {numbers : List Nat} :
    Traces (StoresChunk id)
      (stageChunks id staging logicalSize offset patch numbers : Call H Int) := by
  induction numbers with
  | nil => exact .pure _
  | cons no numbers step => exact .bind (stores_stageChunk) fun _ => .bind step fun _ => .pure _

/-- A staging area is found, and what follows knows that it is there. -/
theorem traces_findStaging {next : Staging -> Call H α}
    (rest : ∀ (db : Db H) row, db.staging.get id = some row ->
      Transitions db ((next row).run db).2) :
    Traces Transition (exec (findStaging id) >>= next : Call H α) := by
  intro db
  apply Traces.bind_at
  · exact Traces.exec .of_readOnly db
  · intro row between found
    obtain ⟨stored, rfl⟩ := require_ok.1 (Program.run_exec_eq_ok.1 found)
    exact rest between row stored

theorem traces_stageWrite (id : Nat) (handle : Handle) (offset : Nat) (patch : Bytes) :
    Traces Transition (stageWrite id handle offset patch : Call H Nat) := by
  refine .ite (.pure _) (.guard <| traces_findStaging
    fun db staging stored => ?_)
  apply Traces.bind_at
  · exact (StoresChunk.transitions (stores_stageChunks db) stored).1
  · intro _ between _
    exact Traces.bind (.exec (.write fun db => .updateStaging db id _)) (fun _ =>
      .call (traces_updateHandle id) fun _ => .pure _) between

theorem traces_handleStageWrite {offset : Int} :
    Traces Transition (handleStageWrite id offset patch request : Call H RequestResult) := by
  refine traces_onceOnly _ _ _ fun fingerprint => .bind (traces_writableHandle id) fun handle => ?_
  exact .guard <| .guard <| .look fun staging => .look fun _ =>
      .bind (traces_stageWrite _ _ _ _) fun _ => .bind traces_storeRequest fun _ => .pure _

theorem traces_shrinkStaging {row : Staging} (stored : db.staging.get id = some row)
    (staging : Staging) (size : Nat) :
    Transitions db ((shrinkStaging id staging size : Call H Unit).run db).2 := by
  have dropping : Traces (StoresChunk id)
      (exec (Tx.write fun db => db.dropDirtyChunks id (chunkCount size)) : Call H Unit) :=
    .exec (.write fun db => ⟨rfl, fun _ => .dropChunks db _⟩)
  have shrinking : Traces (StoresChunk id) (shrinkStaging id staging size : Call H Unit) :=
    .ite (.look fun _ => .bind dropping fun _ => .exec (stores_storeDirtyChunk)) dropping
  exact (StoresChunk.transitions (shrinking db) stored).1

theorem traces_truncateStaging (id : Nat) (handle : Handle) (size : Nat) :
    Traces Transition (truncateStaging id handle size : Call H Nat) := by
  refine .guard <| traces_findStaging fun db staging stored => ?_
  by_cases same : size = staging.logicalSize
  · rw [if_pos same]
    exact .refl
  · rw [if_neg same]
    split_ifs
    · refine Traces.bind_at (traces_shrinkStaging stored staging size) fun _ between _ => ?_
      exact Traces.reads (fun _ => .call (.write fun db => .updateStaging db id _) fun _ =>
        .call (traces_updateHandle id) fun _ => .pure _) between
    · exact Traces.reads (fun _ => .call (.write fun db => .updateStaging db id _) fun _ =>
        .call (traces_updateHandle id) fun _ => .pure _) db

theorem traces_handleTruncate {size : Int} :
    Traces Transition (handleTruncate id size request : Call H RequestResult) := by
  refine traces_onceOnly _ _ _ fun fingerprint => .bind (traces_writableHandle id) fun handle => ?_
  exact .guard <| .look fun _ => .bind (traces_truncateStaging _ _ _) fun _ =>
    .bind traces_storeRequest fun _ => .pure _

theorem traces_storeVersionFromStaging {version handle : Nat} :
    Tx.Traces Transition (storeVersionFromStaging env inode version handle generation :
      Sql H Nat) := by
  intro _ _ _ returned
  obtain ⟨_, free, _, previous, pieces, publishable, rfl⟩ :=
    storeVersionFromStaging_ok.1 returned
  obtain ⟨whole, bounded⟩ := piecesOf_stagedPieces publishable.pieces
  refine .tail (.single (.change (.version env inode version _ previous pieces
    publishable.toStorable free whole fun _ => bounded))) (.of_kept rfl ?_ ?_)
  · intro id _ stored
    change ∃ now, (update _ _).get id = some now
    rw [get_update, stored]
    exact ⟨_, rfl⟩
  · intro id no _ found
    exact (filter_eq_some_iff.1 ((Table.get_filter _ _ (id, no)).symm.trans found)).1

theorem traces_publishHandle (env : Env) (id : Nat) (handle : Handle) (generation : Nat) :
    Tx.Traces Transition (publishHandleInTransaction env id handle generation : Sql H Nat) := by
  refine .guard <| .ite (.look fun _ => .pure _) ?_
  exact .guard <| .look fun _ => .guard <| .bind traces_storeVersionFromStaging fun _ =>
      .bind (traces_besides fun _ => ⟨rfl, rfl, rfl⟩) fun _ => .pure _

theorem traces_handlePublish {durability : Durability} :
    Traces Transition (handlePublish env id generation durability request : Call H RequestResult) :=
  traces_onceOnly _ _ _ fun _ => .look fun _ => .call (traces_publishHandle _ _ _ _) fun _ =>
      .bind traces_storeRequest fun _ => .pure _

theorem traces_handlePublishClose :
    Tx.Traces Transition (handlePublishClose env id generation : Sql H Nat) :=
  .bind (.look fun _ => traces_publishHandle _ _ _ _) fun _ =>
    .bind (.write fun db => .dropStaging db _ _) fun _ => .pure _

theorem traces_appendHandle {handle : Handle} :
    Traces Transition (appendHandle env id handle suffix : Call H Nat) := by
  exact .look fun node => .guard <| .guard <| .look fun _ =>
    .call (.write fun db => .dropStaging db db.handles _) fun _ =>
      .call traces_createStagingFromVersion fun _ =>
        .bind (traces_stageWrite _ _ _ _) fun _ => .exec (traces_publishHandle _ _ _ _)

theorem traces_handleAppend :
    Traces Transition (handleAppend env id suffix request : Call H RequestResult) :=
  traces_onceOnly _ _ _ fun _ => .bind (traces_writableHandle id) fun _ =>
    .guard <| .exec (Traces.savepoint
      (.bind traces_appendHandle fun _ => .bind traces_storeRequest fun _ => .pure _))

theorem traces_handleClose {retain : Bool} :
    Traces Transition (handleClose id retain request : Call H RequestResult) := by
  refine traces_onceOnly _ _ _ fun fingerprint => .look fun handle =>
    .call (traces_besides fun _ => ⟨rfl, rfl, rfl⟩) fun _ =>
      .ite (.pair (fun db => .dropStagingOf db id) ?_) ?_
  all_goals exact .bind traces_storeRequest fun _ => .pure _

/-! ## Mount sessions -/

theorem traces_sessionStart {session : String} :
    Tx.Traces Transition (sessionStart env session : Sql H Unit) := by
  refine .guard <| .reads fun db => .guard ?_
  split
  on_goal 1 => refine .ite (.bind (.write fun db => .dropStaging db _ _) fun _ => ?_) ?_
  all_goals
    exact .bind (traces_besides fun _ => ⟨rfl, rfl, rfl⟩) fun _ =>
      traces_besides fun _ => ⟨rfl, rfl, rfl⟩

theorem traces_sessionHeartbeat {session : String} :
    Tx.Traces Transition (sessionHeartbeat env session : Sql H Unit) :=
  .guard <| .reads fun _ => .guard <|
    traces_besides fun _ => ⟨rfl, rfl, rfl⟩

theorem traces_sessionEnd {session : String} :
    Tx.Traces Transition (sessionEnd session : Sql H Unit) :=
  .guard <| .bind (.write fun db => .dropStaging db _ _) fun _ =>
    traces_besides fun _ => ⟨rfl, rfl, rfl⟩

theorem traces_publishEach (env : Env) {pending : List (Nat × Nat)} :
    Traces Transition (publishEach env pending : Call H Unit) := by
  induction pending with
  | nil => exact .pure _
  | cons item pending step =>
    exact .look fun _ => .call (traces_publishHandle _ _ _ _) fun _ =>
      step

theorem traces_synchronize :
    Traces Transition (synchronize env workspace request session : Call H RequestResult) :=
  traces_onceOnly _ _ _ fun _ => .reads fun _ =>
    .bind (traces_publishEach env) fun _ => .bind traces_storeRequest fun _ => .pure _

theorem traces_publishCloseAll {session : String} {limit : Int} :
    Tx.Traces Transition (publishCloseAll env session limit : Sql H Nat) :=
  .guard <| .guard <| .reads fun _ =>
    .bind (.forM _ fun _ _ => .bind traces_handlePublishClose fun _ => .pure _) fun _ => .pure _

theorem traces_reclaimEach {ids : List Nat} :
    Traces Transition (reclaimEach ids : Call H Unit) := by
  induction ids with
  | nil => exact .pure _
  | cons id ids step =>
    exact .pair (fun db => .dropStagingOf db id)
      (.call (traces_besides fun _ => ⟨rfl, rfl, rfl⟩) fun _ => step)

theorem traces_reclaim : Traces Transition (reclaim workspace request : Call H RequestResult) :=
  traces_onceOnly _ _ _ fun _ => .reads fun _ =>
    .bind traces_reclaimEach fun _ => .bind traces_storeRequest fun _ => .pure _

/-! ## Snapshots -/

theorem traces_insertSnapshotRow (env : Env) (name : String) (type : SnapshotType) (commit : Nat)
    (valid : db.validateHistoryCommit commit = .ok () ∨ commit = db.workspace.headCommit)
    (returned : insertSnapshotRow env name type commit db = .ok (nothing, after)) :
    Changes db after := by
  have changed := attempt_ok.1 returned
  split_ifs at changed
  rw [<- Except.ok.inj changed]
  refine .single (.snapshots _ fun other snapshot stored => ?_)
  rw [get_set] at stored
  split_ifs at stored
  · rw [<- some.inj stored]
    exact .inr valid
  · exact .inl stored

theorem traces_insertSnapshot :
    Tx.Traces Change (insertSnapshot env name type commit : Sql H Unit) := by
  intro _ _ _ returned
  unfold insertSnapshot validateSnapshotDefinition at returned
  simp only [bind_ok, rejectIf_ok, checked_ok] at returned
  obtain ⟨_, _, ⟨_, rfl⟩, _, _, ⟨valid, rfl⟩, inserted⟩ := returned
  exact traces_insertSnapshotRow env name type commit (.inl valid) inserted

theorem traces_snapshotCreate {expected : Option Nat} {consistent : Bool} :
    Tx.Traces Change (snapshotCreate env name expected consistent type : Sql H Nat) :=
  .guard <| .reads fun _ => .guard <| .guard <| .bind traces_insertSnapshot fun _ => .pure _

theorem traces_snapshotCreateAtCommit :
    Tx.Traces Change (snapshotCreateAtCommit env name commit type : Sql H Nat) :=
  .guard <| .guard <| .look fun _ => .bind traces_insertSnapshot fun _ => .pure _

theorem traces_snapshotCreateAtTime {time : Nat} :
    Tx.Traces Change (snapshotCreateAtTime env name time type : Sql H Nat) :=
  .guard <| .look fun _ => .look fun _ => .bind traces_insertSnapshot fun _ => .pure _

/-- Keeping some of the snapshots is a change. -/
theorem Change.keepSnapshots (keep : String -> Snapshot -> Bool) :
    Change db { db with snapshots := db.snapshots.filter keep } := by
  refine .snapshots _ fun name snapshot stored => .inl ?_
  rw [Table.get_filter] at stored
  exact (filter_eq_some_iff.1 stored).1

theorem traces_snapshotDrop : Tx.Traces Change (snapshotDrop name : Sql H Unit) :=
  .look fun _ => .write fun _ => .keepSnapshots _

theorem traces_snapshotPrune : Tx.Traces Change (snapshotPrune env : Sql H Unit) :=
  .write fun _ => .keepSnapshots _

theorem traces_snapshotPolicySet {agentKeep safetyKeep keepDays : Nat} :
    Tx.Traces Change (snapshotPolicySet agentKeep safetyKeep keepDays : Sql H Unit) :=
  .guard <| .guard <| .write fun _ => .settings _ rfl rfl rfl rfl rfl

theorem traces_quotaSet {maxBytes maxFiles maxFileBytes : Option Nat} :
    Tx.Traces Change (quotaSet maxBytes maxFiles maxFileBytes : Sql H Unit) :=
  .write fun _ => .settings _ rfl rfl rfl rfl rfl

section

omit [DecidableEq H] [Digest H]

theorem restoreTarget_ok {target : Nat}
    (returned : restoreTarget env name expected db = .ok (target, after)) :
    after = db ∧ db.workspace.headCommit = expected ∧ db.activeSession env = none ∧
      ∃ current recorded, db.Restorable target current recorded := by
  unfold restoreTarget findSnapshot at returned
  simp only [bind_ok, rejectIf_ok, require_ok, checked_ok] at returned
  obtain ⟨_, _, ⟨rfl, rfl⟩, _, _, ⟨head, rfl⟩, _, _, ⟨unmounted, rfl⟩, snapshot, _,
    ⟨_, _, ⟨found, rfl⟩, _, _, ⟨valid, rfl⟩, rfl, rfl⟩, _, _, ⟨closed, rfl⟩, current, _,
    ⟨currentTree, rfl⟩, recorded, _, ⟨recordedTree, rfl⟩, _, _, ⟨differs, rfl⟩, _, _,
    ⟨admitted, rfl⟩, rfl, rfl⟩ := returned
  refine ⟨rfl, not_not.1 head, by simpa using unmounted, current, recorded,
    ⟨name, snapshot, found, rfl⟩, valid, ?_, currentTree, recordedTree, differs, admitted⟩
  intro id handle stored
  rw [List.any_eq_true] at closed
  by_contra opened
  exact closed ⟨(id, handle), (mem_entries _ _ _).2 stored, by simpa using opened⟩

/-- Version rows whose keys are free and distinct are all inserted. -/
theorem insertVersions_ok {rows : List ((Nat × Nat) × Version H)}
    (returned : (rows.forM fun row => do
      let id <- reading nextVersionId
      insertVersion row.1.1 row.1.2 { row.2 with id := id } : Sql H Unit) db =
        .ok (nothing, after)) :
    after = db.withVersions rows ∧ ∀ row ∈ rows, db.versions.get row.1 = none := by
  induction rows generalizing db with
  | nil => exact ⟨(pure_ok.1 returned).2, nofun⟩
  | cons row rows step =>
    simp only [List.forM, bind_ok, insertVersion_ok] at returned
    obtain ⟨_, _, ⟨_, _, ⟨rfl, rfl⟩, free, rfl⟩, rest⟩ := returned
    obtain ⟨rfl, others⟩ := step rest
    refine ⟨rfl, fun other member => ?_⟩
    rcases mem_cons.1 member with rfl | later
    · exact free
    · have kept := others other later
      rw [get_set] at kept
      split_ifs at kept
      exact kept

/-- Where content is found depends on the version rows only. -/
theorem followSource_congr (same : right.versions = left.versions) (inode fuel number : Nat) :
    right.followSource inode fuel number = left.followSource inode fuel number := by
  induction fuel generalizing number with
  | zero => rfl
  | succ fuel step =>
    unfold followSource
    rw [same]
    congr 1
    funext version
    cases version.source with
    | none => rfl
    | some source => exact step source

theorem snapshotTree_congr (same : right.versions = left.versions) (image : Image)
    (places : List (Path × Nat)) :
    right.snapshotTree image places = left.snapshotTree image places := by
  have canonical : right.canonicalVersion = left.canonicalVersion := by
    funext some_published inode row
    unfold canonicalVersion
    rw [followSource_congr same]
  unfold snapshotTree
  rw [canonical]

theorem currentTree_congr (image : right.currentImage = left.currentImage)
    (versions : right.versions = left.versions) : right.currentTree = left.currentTree := by
  have root : right.workspace.rootInode = left.workspace.rootInode := congrArg Image.root image
  unfold currentTree currentPlaces
  rw [image, root, snapshotTree_congr versions]

theorem treeAtCommit_congr
    (valid : right.validateHistoryCommit commit = left.validateHistoryCommit commit)
    (image : right.imageAt commit = left.imageAt commit)
    (versions : right.versions = left.versions) :
    right.treeAtCommit commit = left.treeAtCommit commit := by
  have root : right.workspace.rootInode = left.workspace.rootInode := congrArg Image.root image
  have trees : right.snapshotTree = left.snapshotTree := by
    funext image places
    exact snapshotTree_congr versions image places
  unfold treeAtCommit
  rw [valid, image, root, trees]

end

/-- The safety snapshot adds at most one row and leaves the checks of a restore valid. -/
theorem safetySnapshot_ok (returned : safetySnapshot env safety db = .ok (nothing, after)) :
    Changes db after ∧ (∃ table, after = { db with snapshots := table }) ∧
      ∀ target current recorded, db.Restorable target current recorded ->
        after.Restorable target current recorded := by
  cases safety with
  | none =>
    obtain ⟨_, rfl⟩ := pure_ok.1 returned
    exact ⟨.refl, ⟨_, rfl⟩, fun _ _ _ holds => holds⟩
  | some safetyName =>
    unfold safetySnapshot at returned
    simp only [bind_ok, reading_ok] at returned
    obtain ⟨_, _, ⟨rfl, same⟩, inserted⟩ := returned
    rw [same] at inserted
    refine ⟨traces_insertSnapshotRow env safetyName .safety _ (.inr rfl) inserted, ?_⟩
    have changed := attempt_ok.1 inserted
    split_ifs at changed with taken
    rw [<- Except.ok.inj changed]
    refine ⟨⟨_, rfl⟩, ?_⟩
    rintro _ _ _ ⟨⟨name, snapshot, found, commit⟩, valid, closed, currentTree,
      recordedTree, differs, admitted⟩
    refine ⟨⟨name, snapshot, ?_, commit⟩, valid, closed, ?_, ?_, differs, admitted⟩
    · rw [get_set_of_ne _ _ (by rintro rfl; rw [found] at taken; simp at taken)]
      exact found
    · rw [<- currentTree]
      exact currentTree_congr rfl rfl
    · rw [<- recordedTree]
      exact treeAtCommit_congr rfl rfl rfl

theorem traces_snapshotRestore :
    Tx.Traces Change (snapshotRestore env name expected safety : Sql H Nat) := by
  intro _ _ _ returned
  unfold snapshotRestore storeRestoredVersionAliases at returned
  simp only [bind_ok, rejectIf_ok, write_ok] at returned
  obtain ⟨_, _, ⟨_, rfl⟩, _, _, ⟨_, rfl⟩, target, _, checks, _, _, safe, _, _, rfl, _, _, rfl,
    _, _, ⟨rfl, rfl⟩, _, _, ⟨_, _, ⟨rfl, rfl⟩, stored⟩, _, rfl⟩ := returned
  obtain ⟨rfl, _, _, current, recorded, restorable⟩ := restoreTarget_ok checks
  obtain ⟨first, _, kept⟩ := safetySnapshot_ok safe
  obtain ⟨rfl, free⟩ := insertVersions_ok stored
  exact first.tail (.restore env target current recorded (kept _ _ _ restorable) free)

/-! ## Retention -/

theorem traces_retentionSet {keepVersions keepDays : Nat} :
    Tx.Traces Change (retentionSet keepVersions keepDays : Sql H Unit) :=
  .guard <| .guard <| .write fun _ => .settings _ rfl rfl rfl rfl rfl

theorem traces_gcPause {paused : Bool} : Tx.Traces Change (gcPause paused : Sql H Unit) :=
  .write fun _ => .settings _ rfl rfl rfl rfl rfl

theorem traces_gc (env : Env) (batch : Nat) : Tx.Traces Evolves (gc env batch : Sql H Unit) := by
  intro _ _ _ returned
  unfold gc at returned
  simp only [bind_ok, rejectIf_ok] at returned
  obtain ⟨_, _, ⟨_, rfl⟩, _, _, ⟨_, rfl⟩, _, _, ⟨rfl, rfl⟩, _, _, ⟨_, rfl⟩, _, _, ⟨running, rfl⟩,
    rest⟩ := returned
  split_ifs at rest with nothingDeleted
  · rw [(pure_ok.1 rest).2]
  · rw [write_ok.1 rest]
    exact .single (.collect env batch (by simpa using running))

/-! ## All operations -/

theorem traces_withPath (path : Bytes) {body : List Name -> Call H α}
    (traces : ∀ parts, Traces Change (body parts)) : Traces Change (withPath path body) :=
  .look fun parts => .bind (traces parts) fun _ => .pure _

section

omit [DecidableEq H] [Digest H]

theorem traces_ignore_at {α : Type} {call : Call H α}
    (traces : ReflTransGen step db (call.run db).2) :
    ReflTransGen step db ((ignore call).run db).2 :=
  Traces.bind_at traces fun _ _ _ => .refl

theorem traces_ignore {α : Type} {call : Call H α} (traces : Traces step call) :
    Traces step (ignore call) :=
  fun db => traces_ignore_at (traces db)

end

/-- The operation collects old versions. -/
def Op.collects : Op -> Prop
  | .gc _ => True
  | _ => False

/-- Every other operation is a sequence of transitions, whether or not it fails. -/
theorem traces_call (workspace : String) (env : Env) {op : Op} (keeps : ¬ op.collects) :
    Traces Transition (op.call workspace env : Call H Unit) := by
  cases op with
  | mkdir => exact .mono (traces_withPath _ fun _ => traces_mkdir) .change
  | create => exact .mono (traces_withPath _ fun _ => .exec traces_create) .change
  | symlink => exact .mono (traces_withPath _ fun _ => .exec traces_symlink) .change
  | link =>
    exact .mono (traces_withPath _ fun _ => traces_withPath _ fun _ =>
      .exec traces_hardlink) .change
  | write => exact .mono (traces_withPath _ fun _ => .exec traces_write) .change
  | append => exact .mono (traces_ignore (.exec traces_append)) .change
  | rename =>
    exact .mono (traces_withPath _ fun _ => traces_withPath _ fun _ => traces_rename) .change
  | remove => exact .mono (traces_withPath _ fun _ => traces_remove) .change
  | restoreVersion =>
    exact .mono (traces_withPath _ fun _ => .exec traces_restoreVersion) .change
  | setMode => exact .mono (.exec traces_setMode) .change
  | setTimes => exact .mono (.exec traces_setTimes) .change
  | chown => exact .mono (.exec traces_chown) .change
  | ownerSet => exact .mono (traces_withPath _ fun _ => .exec traces_ownerSet) .change
  | aclSet => exact .mono (.exec traces_aclSet) .change
  | aclDelete => exact .mono (.exec traces_removeAcl) .change
  | aclGrant => exact .mono (.exec traces_aclGrant) .change
  | aclRevoke => exact .mono (.exec traces_removeAcl) .change
  | setXattr => exact .mono (.exec traces_setXattr) .change
  | handleCreate => exact traces_ignore traces_handleCreate
  | handleOpen => exact traces_ignore traces_handleOpen
  | handleStageWrite => exact traces_ignore traces_handleStageWrite
  | handleTruncate => exact traces_ignore traces_handleTruncate
  | handlePublish => exact traces_ignore traces_handlePublish
  | handlePublishClose => exact traces_ignore (.exec traces_handlePublishClose)
  | handleAppend => exact traces_ignore traces_handleAppend
  | handleClose => exact traces_ignore traces_handleClose
  | sessionStart => exact .exec traces_sessionStart
  | sessionHeartbeat => exact .exec traces_sessionHeartbeat
  | sessionEnd => exact .exec traces_sessionEnd
  | synchronize => exact traces_ignore traces_synchronize
  | publishCloseAll => exact traces_ignore (.exec traces_publishCloseAll)
  | reclaim => exact traces_ignore traces_reclaim
  | snapshotCreate =>
    exact .mono (traces_ignore (.exec traces_snapshotCreate)) .change
  | snapshotCreateAtCommit =>
    exact .mono (traces_ignore (.exec traces_snapshotCreateAtCommit)) .change
  | snapshotCreateAtTime =>
    exact .mono (traces_ignore (.exec traces_snapshotCreateAtTime)) .change
  | snapshotDrop => exact .mono (.exec traces_snapshotDrop) .change
  | snapshotPolicySet =>
    exact .mono (.exec traces_snapshotPolicySet) .change
  | snapshotPrune => exact .mono (.exec traces_snapshotPrune) .change
  | snapshotRestore =>
    exact .mono (traces_ignore (.exec traces_snapshotRestore)) .change
  | quotaSet => exact .mono (.exec traces_quotaSet) .change
  | retentionSet => exact .mono (.exec traces_retentionSet) .change
  | gcPause => exact .mono (.exec traces_gcPause) .change
  | gc batch => exact absurd trivial keeps
  | elsewhere => exact .exec (traces_besides fun _ => ⟨rfl, rfl, rfl⟩)

theorem Step.transitions (workspace : String) {step : Step} (keeps : ¬ step.op.collects)
    (db : Db H) : Transitions db (step.run workspace db) :=
  traces_call workspace step.env keeps db

/-- Every operation is a sequence of transitions and collections. -/
theorem Step.evolves (workspace : String) (step : Step) (db : Db H) :
    ReflTransGen Evolves db (step.run workspace db) := by
  by_cases keeps : step.op.collects
  · obtain ⟨env, op⟩ := step
    cases op with
    | gc batch => exact Traces.exec (traces_gc env batch) db
    | _ => exact absurd keeps id
  · exact .mono (fun _ _ => .transition) _ _
      (step.transitions workspace keeps db)

omit [DecidableEq H] [Digest H] in
/-- The tables of a new workspace, statement by statement. -/
theorem initial_eq (env : Env) (elsewhere : RowIds) :
    (initial env elsewhere : Db H) = (({ (blank elsewhere : Db H).insertInode (elsewhere.inode + 1)
            (newInode env .directory 0o755) with
          workspace.rootInode := elsewhere.inode + 1 } : Db H).setAcl
        ⟨elsewhere.inode + 1, "local", .allow⟩
        ⟨"traverse,list,read,write,create,delete,rename,history,snapshot,share,admin",
          1⟩).committed env := rfl

/-- What holds in a new workspace and is kept by every transition and collection holds in
every reachable state. -/
theorem Reachable.keep {allowed : Db H -> Step -> Prop} {property : Db H -> Prop}
    (start : ∀ env elsewhere, property (VexFs.initial env elsewhere))
    (change : ∀ db after, property db -> Evolves db after -> property after)
    (reached : Reachable workspace allowed db) : property db := by
  induction reached with
  | initial env elsewhere => exact start env elsewhere
  | step step _ _ holds => exact keep_of_steps property change holds (step.evolves workspace _)

end VexDB.VexFs
