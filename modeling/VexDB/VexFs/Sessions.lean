import VexDB.VexFs.Publishing

/-!
# Unpublished content and mount sessions

Starting, ending and taking over sessions, publishing and reclaiming leave a
handle with unpublished content open or retained, with its staged content as it
was, until that content is published or the handle is closed without retaining.
-/

namespace VexDB.VexFs

open Storage List Tx Handle Db
open Program (exec Traces run_exec_eq_ok run_exec_ok)
open Table (get_filter_of_kept get_update)

variable {H : Type} {id : Nat} {other : Nat} {request : String} {generation : Nat} {db after : Db H}
  {handle : Handle} {env : Env} {session : String}

/-- A handle is open or retained and has content that was not published. -/
structure Db.Unpublished (db : Db H) (id : Nat) (handle : Handle) : Prop where
  stored : db.handles.get id = some handle
  dirty : handle.publishedGeneration < handle.dirtyGeneration
  opened : handle.state ≠ .closed

/-- The last generation that a handle staged is published. -/
def Db.PublishedAs (db : Db H) (id generation : Nat) : Prop :=
  ∃ handle, db.handles.get id = some handle ∧ handle.dirtyGeneration = generation ∧
    handle.publishedGeneration = generation

/-- A handle and its staged content stayed, except for who owns the handle. -/
structure Db.HandleKept (db after : Db H) (id : Nat) (handle : Handle) : Prop where
  staging : after.staging.get id = db.staging.get id
  chunks : ∀ no, after.stagingChunks.get (id, no) = db.stagingChunks.get (id, no)
  content : db.ContentGrows after
  stored : ∃ state owner, state ≠ .closed ∧
    after.handles.get id = some { handle with state := state, ownerSession := owner }

theorem Db.HandleKept.refl (unpublished : db.Unpublished id handle) : db.HandleKept db id handle :=
  ⟨rfl, fun _ => rfl, .refl db, handle.state, handle.ownerSession, unpublished.opened,
    unpublished.stored⟩

theorem Db.HandleKept.unpublished (kept : db.HandleKept after id handle)
    (unpublished : db.Unpublished id handle) :
    ∃ now, after.Unpublished id now ∧ now.dirtyGeneration = handle.dirtyGeneration ∧
      ∃ state owner, now = { handle with state := state, ownerSession := owner } := by
  obtain ⟨state, owner, opened, stored⟩ := kept.stored
  exact ⟨_, ⟨stored, unpublished.dirty, opened⟩, rfl, state, owner, rfl⟩

theorem Db.HandleKept.trans {between : Db H} {now : Handle} {state : HandleState}
    {owner : Option String} (first : db.HandleKept between id handle)
    (second : between.HandleKept after id now)
    (same : now = { handle with state := state, ownerSession := owner }) :
    db.HandleKept after id handle := by
  subst same
  obtain ⟨later, laterOwner, opened, stored⟩ := second.stored
  exact ⟨second.staging.trans first.staging, fun no => (second.chunks no).trans (first.chunks no),
    first.content.trans second.content, later, laterOwner, opened, stored⟩

section

variable [DecidableEq H] [Digest H]

/-- What is staged of a kept handle reads the same. -/
theorem Db.HandleKept.reads (kept : db.HandleKept after id handle) {offset length : Nat}
    {bytes : Bytes} (read : db.readStagingRange id offset length = .ok bytes) :
    after.readStagingRange id offset length = .ok bytes := by
  -- A base chunk that was found is still there.
  have base : ∀ staging no found, db.baseChunk staging no = .ok found ->
      after.baseChunk staging no = .ok found := by
    intro staging no found base
    unfold baseChunk at base ⊢
    dsimp only at base ⊢
    split at base
    · exact base
    · rename_i manifest named
      split at base
      · cases base
      · rename_i sane
        rw [if_neg sane]
        split at base
        · cases base
        · rename_i chunk present
          obtain ⟨chunkId, listed, stored⟩ := Option.bind_eq_some_iff.1 present
          obtain ⟨listedNow, storedNow⟩ := kept.content manifest no chunkId chunk listed stored
          rw [listedNow, Option.bind_some, storedNow]
          exact base
  have effective : ∀ staging no found, db.readEffectiveChunk id staging no = .ok found ->
      after.readEffectiveChunk id staging no = .ok found := by
    intro staging no found effective
    unfold readEffectiveChunk at effective ⊢
    rw [kept.chunks no]
    split at effective
    · exact effective
    · split_ifs at effective ⊢ with beyond
      · exact effective
      · cases baseRead : db.baseChunk staging no with
        | error =>
          rw [baseRead] at effective
          exact absurd effective (by simp [Except.map])
        | ok content =>
          rw [baseRead] at effective
          rw [base staging no content baseRead]
          exact effective
  have piece : ∀ staging start stop no found,
      db.readStagedPiece id staging start stop no = .ok found ->
      after.readStagedPiece id staging start stop no = .ok found := by
    intro staging _ _ no found piece
    unfold readStagedPiece at piece ⊢
    cases effectiveRead : db.readEffectiveChunk id staging no with
    | error =>
      rw [effectiveRead] at piece
      cases piece
    | ok content =>
      rw [effectiveRead] at piece
      rw [effective staging no content effectiveRead]
      exact piece
  unfold readStagingRange at read ⊢
  rw [kept.staging]
  split_ifs at read ⊢ with outside
  split at read
  · exact read
  · rename_i staging found
    split_ifs at read ⊢ with nothing
    · exact read
    · dsimp only [bind, Except.bind] at read ⊢
      split at read
      · cases read
      · rename_i pieces mapped
        rw [mapM_except_of_forall₂ ((mapM_except_ok mapped).imp fun no part =>
          piece staging _ _ no part)]
        exact read

/-! ## What calls do to one handle -/

/-- From a sound state, a handle with unpublished content of a generation is kept
or its content is published, and published content stays so. -/
def Advances (id generation : Nat) (db after : Db H) : Prop :=
  db.Sound -> after.Sound ∧
    (∀ handle, db.Unpublished id handle -> handle.dirtyGeneration = generation ->
      db.HandleKept after id handle ∨ after.PublishedAs id generation) ∧
    (db.PublishedAs id generation -> after.PublishedAs id generation)

section

omit [DecidableEq H]

theorem Advances.refl (id generation : Nat) (db : Db H) : Advances id generation db db :=
  fun sound => ⟨sound, fun _ unpublished _ => .inl (.refl unpublished), fun published => published⟩

theorem Advances.trans {between : Db H} (first : Advances id generation db between)
    (second : Advances id generation between after) : Advances id generation db after := by
  intro sound
  obtain ⟨soundBetween, keptFirst, publishedFirst⟩ := first sound
  obtain ⟨soundAfter, keptSecond, publishedSecond⟩ := second soundBetween
  refine ⟨soundAfter, fun handle unpublished same => ?_, publishedSecond ∘ publishedFirst⟩
  rcases keptFirst handle unpublished same with kept | published
  · obtain ⟨now, nowUnpublished, nowSame, _, _, nowIs⟩ := kept.unpublished unpublished
    rcases keptSecond now nowUnpublished (nowSame.trans same) with keptNow | published
    · exact .inl (kept.trans keptNow nowIs)
    · exact .inr published
  · exact .inr (publishedSecond published)

theorem Advances.of_trace (trace : Relation.ReflTransGen (Advances id generation) db after) :
    Advances id generation db after := by
  induction trace with
  | refl => exact .refl id generation db
  | tail _ last kept => exact kept.trans last

/-- A change of handle rows that keeps generations, and keeps what has unpublished
content open and staged. -/
theorem Advances.of_rows (beside : db.besides after)
    (rows : ∀ handle, db.handles.get id = some handle -> ∃ state owner,
      after.handles.get id = some { handle with state := state, ownerSession := owner } ∧
        (db.Unpublished id handle -> state ≠ .closed))
    (staging : ∀ handle, db.Unpublished id handle -> after.staging.get id = db.staging.get id ∧
      ∀ no, after.stagingChunks.get (id, no) = db.stagingChunks.get (id, no)) :
    Advances id generation db after := by
  intro sound
  refine ⟨sound.besides beside, ?_, ?_⟩
  · intro handle unpublished _
    obtain ⟨state, owner, stored, stays⟩ := rows handle unpublished.stored
    obtain ⟨stagingSame, chunksSame⟩ := staging handle unpublished
    refine .inl ⟨stagingSame, chunksSame, ?_, state, owner, stays unpublished, stored⟩
    rw [beside]
    exact .refl db
  · rintro ⟨handle, found, dirty, published⟩
    obtain ⟨_, _, stored, _⟩ := rows handle found
    exact ⟨_, stored, dirty, published⟩

/-- A change that leaves the handle and its staged content alone. -/
theorem Advances.of_same (beside : db.besides after)
    (handles : after.handles.get id = db.handles.get id)
    (staging : after.staging.get id = db.staging.get id)
    (chunks : ∀ no, after.stagingChunks.get (id, no) = db.stagingChunks.get (id, no)) :
    Advances id generation db after :=
  .of_rows beside (fun handle found => ⟨handle.state, handle.ownerSession, handles.trans found,
      fun unpublished => unpublished.opened⟩)
    fun _ _ => ⟨staging, chunks⟩

end

theorem advances_publish (id generation : Nat) (stored : db.handles.get other = some handle)
    (returned : publishHandleInTransaction env other handle latest db = .ok (version, after)) :
    Advances id generation db after := by
  intro sound
  have soundAfter := Transitions.sound sound
    (traces_publishHandle env other handle latest db version after returned)
  obtain ⟨_, ⟨_, rfl, _⟩ | ⟨_, _, _, publishes⟩⟩ :=
    publishHandle_ok.1 returned
  · exact Advances.refl id generation after sound
  · refine ⟨soundAfter, ?_, ?_⟩
    · intro current unpublished same
      by_cases isThis : id = other
      · subst isThis
        right
        cases stored.symm.trans unpublished.stored
        refine ⟨{ handle with expectedVersion := version, publishedGeneration := latest }, ?_,
          same, publishes.latest.trans same⟩
        rw [publishes.get_handles, stored]
        simp only [Option.map_some, if_true]
      · left
        obtain ⟨stagingSame, chunksSame⟩ := publishes.get_staging isThis
        refine ⟨stagingSame, chunksSame, publishes.contentGrows sound.content, current.state,
          current.ownerSession, unpublished.opened, ?_⟩
        rw [publishes.get_handles, unpublished.stored, Option.map_some, if_neg isThis]
    · rintro ⟨current, found, dirty, published⟩
      by_cases isThis : id = other
      · subst isThis
        cases stored.symm.trans found
        have := publishes.isNew
        have := publishes.latest
        omega
      · refine ⟨current, ?_, dirty, published⟩
        rw [publishes.get_handles, found, Option.map_some, if_neg isThis]

omit [DecidableEq H] in
theorem advances_storeRequest :
    Traces (Advances id generation)
      (storeRequest request operation fingerprint result : Call H Unit) :=
  storeRequest_traces fun _ _ => .of_same rfl rfl rfl fun _ => rfl

/-- Reading a handle and publishing it. -/
theorem advances_findAndPublish (env : Env) (other latest : Nat) {α : Type} {next : Nat -> Call H α}
    (rest : ∀ version, Traces (Advances id generation) (next version)) :
    Traces (Advances id generation) (do
      let handle <- exec (findHandle other)
      let version <- exec (publishHandleInTransaction env other handle latest)
      next version : Call H α) := by
  intro db
  apply Traces.bind_at
  · exact Traces.exec .of_readOnly db
  · intro handle between found
    obtain ⟨stored, rfl⟩ := require_ok.1 (run_exec_eq_ok.1 found)
    apply Traces.bind_at
    · rcases returned : publishHandleInTransaction env other handle latest between with
        _ | ⟨version, after⟩
      · rw [Program.run_exec_error returned]
      · rw [run_exec_ok returned]
        exact .single (advances_publish id generation stored returned)
    · intro version after _
      exact rest version after

theorem advances_handlePublish :
    Traces (Advances id generation)
      (handlePublish env other latest durability request : Call H RequestResult) :=
  traces_onceOnly _ _ _ fun _ => advances_findAndPublish env other latest fun _ =>
    .bind advances_storeRequest fun _ => .pure _

theorem advances_publishEach :
    Traces (Advances id generation) (publishEach env pending : Call H Unit) := by
  induction pending with
  | nil => exact .pure _
  | cons item pending step =>
    obtain ⟨other, latest⟩ := item
    exact advances_findAndPublish env other latest fun _ => step

theorem advances_synchronize {workspace : String} {session : Option String} :
    Traces (Advances id generation)
      (synchronize env workspace request session : Call H RequestResult) :=
  traces_onceOnly _ _ _ fun _ => .reads fun _ =>
    .bind advances_publishEach fun _ =>
      .bind advances_storeRequest fun _ => .pure _

/-! ## Sessions -/

omit [DecidableEq H] [Digest H] in
/-- Dropping the staged content of other handles leaves that of a handle. -/
theorem Db.dropStaging_same (db : Db H) (spared : condition id = false) :
    (db.dropStaging condition).staging.get id = db.staging.get id ∧
      ∀ no, (db.dropStaging condition).stagingChunks.get (id, no) =
        db.stagingChunks.get (id, no) := by
  constructor
  · exact get_filter_of_kept _ fun _ => by rw [spared]; rfl
  · intro no
    exact get_filter_of_kept _ fun _ => by rw [spared]; rfl

theorem Handle.dirty_iff (handle : Handle) :
    handle.dirty = true ↔ handle.publishedGeneration < handle.dirtyGeneration := by
  unfold dirty
  rw [decide_eq_true_eq]

/-- What retaining makes of a handle: only its state changes, and content that was
not published keeps it from being closed. -/
theorem Handle.retain_eq (handle : Handle) (session : String) :
    ∃ state, handle.retain session = { handle with state := state } ∧
      (handle.publishedGeneration < handle.dirtyGeneration -> handle.state ≠ .closed ->
        state ≠ .closed) := by
  unfold retain
  by_cases owned : handle.state = .opened ∧ handle.ownerSession = some session
  · rw [if_pos owned]
    refine ⟨_, rfl, fun dirty _ => ?_⟩
    rw [if_pos (handle.dirty_iff.2 dirty)]
    exact nofun
  · rw [if_neg owned]
    exact ⟨handle.state, rfl, fun _ opened => opened⟩

theorem Handle.claim_eq (handle : Handle) (session : String) :
    ∃ state owner, handle.claim session = { handle with state := state, ownerSession := owner } ∧
      (handle.state ≠ .closed -> state ≠ .closed) := by
  unfold claim
  split_ifs
  · exact ⟨_, _, rfl, fun _ => nofun⟩
  · exact ⟨handle.state, handle.ownerSession, rfl, fun opened => opened⟩

section

omit [DecidableEq H]

theorem advances_retainOpenHandles :
    Tx.Traces (Advances id generation)
      (Tx.write fun db => db.retainOpenHandles session : Sql H Unit) := by
  refine .write fun db => .of_rows rfl ?_ ?_
  · intro handle stored
    obtain ⟨state, same, stays⟩ := handle.retain_eq session
    refine ⟨state, handle.ownerSession, ?_, fun unpublished =>
      stays unpublished.dirty unpublished.opened⟩
    change (db.handles.update _).get id = _
    rw [get_update, stored, Option.map_some, same]
  · intro handle unpublished
    obtain ⟨_, same, stays⟩ := handle.retain_eq session
    apply dropStaging_same
    unfold handleClosed
    rw [get_update, unpublished.stored, Option.map_some, same]
    simp [stays unpublished.dirty unpublished.opened]

theorem advances_claimRetainedHandles :
    Tx.Traces (Advances id generation)
      (Tx.write fun db => db.claimRetainedHandles session : Sql H Unit) := by
  refine .write fun db => .of_rows rfl ?_ fun _ _ => ⟨rfl, fun _ => rfl⟩
  intro handle stored
  obtain ⟨state, owner, same, stays⟩ := handle.claim_eq session
  refine ⟨state, owner, ?_, fun unpublished => stays unpublished.opened⟩
  change (db.handles.update _).get id = _
  rw [get_update, stored, Option.map_some, same]

theorem advances_mountSession (id generation : Nat)
    (change : Option MountSession -> Option MountSession) :
    Tx.Traces (Advances id generation)
      (Tx.write fun db => { db with mountSession := change db.mountSession } : Sql H Unit) :=
  .write fun _ => .of_same rfl rfl rfl fun _ => rfl

theorem advances_sessionStart :
    Tx.Traces (Advances id generation) (sessionStart env session : Sql H Unit) := by
  refine .guard <| .reads fun db => .guard ?_
  split
  on_goal 1 => refine .ite (.bind advances_retainOpenHandles fun _ => ?_) ?_
  all_goals
    exact .bind advances_claimRetainedHandles fun _ => advances_mountSession _ _ fun _ => _

theorem advances_sessionHeartbeat :
    Tx.Traces (Advances id generation) (sessionHeartbeat env session : Sql H Unit) :=
  .guard <| .reads fun _ => .guard <|
    advances_mountSession _ _ fun _ => _

theorem advances_sessionEnd :
    Tx.Traces (Advances id generation) (sessionEnd session : Sql H Unit) :=
  .guard <| .bind advances_retainOpenHandles fun _ =>
    advances_mountSession _ _ fun current => current.filter _

end

/-- Publishing and closing a handle, when the generation given for the handle is
the one it has. -/
theorem advances_handlePublishClose (env : Env) (other latest : Nat)
    (same : other = id -> latest = generation) :
    Tx.Traces (Advances id generation) (handlePublishClose env other latest : Sql H Nat) := by
  intro _ version _ returned
  unfold handlePublishClose publishStored findHandle at returned
  simp only [bind_ok, require_ok, write_ok] at returned
  obtain ⟨_, published, ⟨handle, _, ⟨stored, rfl⟩, publish⟩, _, _, rfl, rfl, rfl⟩ := returned
  apply Relation.ReflTransGen.single
  have first := advances_publish id generation stored publish
  by_cases isThis : other = id
  · -- The content of this handle is published before the handle is closed.
    subst isThis
    obtain rfl := same rfl
    intro sound
    obtain ⟨soundPublished, _, stays⟩ := first sound
    have closing : published.PublishedAs other latest ->
        (published.closeHandle other).PublishedAs other latest := by
      rintro ⟨current, found, dirty, isPublished⟩
      refine ⟨{ current with state := .closed }, ?_, dirty, isPublished⟩
      change (published.handles.update _).get other = _
      rw [get_update, found]
      simp only [Option.map_some, if_true]
    have beside : published.besides (published.closeHandle other) := rfl
    refine ⟨soundPublished.besides beside, ?_, fun was => closing (stays was)⟩
    intro _ unpublished generationSame
    cases stored.symm.trans unpublished.stored
    right
    apply closing
    obtain ⟨_, ⟨_, _⟩ | ⟨_, _, _, publishes⟩⟩ :=
      publishHandle_ok.1 publish
    · have := unpublished.dirty
      omega
    · refine ⟨{ handle with expectedVersion := version, publishedGeneration := latest }, ?_,
        generationSame, rfl⟩
      rw [publishes.get_handles, stored]
      simp only [Option.map_some, if_true]
  · refine first.trans (.of_same rfl ?_ ?_ ?_)
    · exact Table.get_update_of_kept _ fun _ => if_neg fun equal => isThis equal.symm
    · exact (dropStaging_same _ (by simpa using fun equal : id = other => isThis equal.symm)).1
    · exact (dropStaging_same _ (by simpa using fun equal : id = other => isThis equal.symm)).2

omit [DecidableEq H] [Digest H] in
theorem mem_pendingHandles (member : (id, generation) ∈ db.pendingHandles condition) :
    ∃ handle, db.handles.get id = some handle ∧ condition handle = true ∧
      handle.dirtyGeneration = generation := by
  unfold pendingHandles at member
  rw [mem_insertionSort, mem_map] at member
  obtain ⟨⟨_, handle⟩, inEntries, same⟩ := member
  cases same
  rw [mem_filter, Table.mem_entries] at inEntries
  exact ⟨handle, inEntries.1, inEntries.2, rfl⟩

theorem advances_publishCloseAll (env : Env) (session : String) (limit : Int) {count : Nat}
    (stored : db.handles.get id = some handle) (same : handle.dirtyGeneration = generation)
    (returned : publishCloseAll env session limit db = .ok (count, after)) :
    Advances id generation db after := by
  unfold publishCloseAll at returned
  simp only [bind_ok, rejectIf_ok, reading_ok] at returned
  obtain ⟨_, _, ⟨_, rfl⟩, _, _, ⟨_, rfl⟩, _, start, ⟨rfl, rfl⟩, _, _, closed, rest⟩ := returned
  obtain ⟨_, rfl⟩ := pure_ok.1 rest
  apply Advances.of_trace
  refine Tx.Traces.forM _ (fun item member => ?_) _ _ _ closed
  refine .bind (advances_handlePublishClose env item.1 item.2 fun isThis => ?_) fun _ => .pure _
  have listed : item ∈ start.pendingHandles (publishesAndCloses session) := by
    split_ifs at member
    · exact member
    · exact mem_of_mem_take member
  obtain ⟨_, foundStored, _, foundSame⟩ := mem_pendingHandles listed
  rw [isThis, stored] at foundStored
  rw [<- foundSame, <- Option.some.inj foundStored, same]

/-! ## Reclaiming and closing -/

section

omit [DecidableEq H]

theorem advances_dropChunks (different : id ≠ other) :
    Tx.Traces (Advances id generation) (Tx.write fun db => { db with
      stagingChunks := db.stagingChunks.filter fun key _ => key.1 ≠ other } : Sql H Unit) :=
  .write fun _ => .of_same rfl rfl rfl fun _ =>
    get_filter_of_kept _ fun _ => decide_eq_true different

theorem advances_dropStaging (different : id ≠ other) :
    Tx.Traces (Advances id generation) (Tx.write fun db => { db with
      staging := db.staging.filter fun key _ => key ≠ other } : Sql H Unit) :=
  .write fun _ => .of_same rfl rfl
    (get_filter_of_kept _ fun _ => decide_eq_true different) fun _ => rfl

/-- The statements for handles other than this one. -/
theorem advances_reclaimEach (spared : id ∉ closed) :
    Traces (Advances id generation) (reclaimEach closed : Call H Unit) := by
  induction closed with
  | nil => exact .pure _
  | cons other closed step =>
    rw [mem_cons, not_or] at spared
    obtain ⟨different, rest⟩ := spared
    exact .call (advances_dropChunks different) fun _ =>
      .call (advances_dropStaging different) fun _ =>
        .call (.write fun db => .of_same rfl (Table.get_erase_of_ne _ different) rfl
          fun _ => rfl) fun _ => step rest

theorem advances_reclaim (unpublished : db.Unpublished id handle) {workspace : String} :
    Relation.ReflTransGen (Advances id generation) db
      ((reclaim workspace request : Call H RequestResult).run db).2 := by
  apply traces_onceOnly_at
  intro _
  apply Traces.bind_at
  · exact Traces.exec .of_readOnly db
  · intro _ between looked
    obtain ⟨rfl, rfl⟩ := reading_ok.1 (run_exec_eq_ok.1 looked)
    have spared : id ∉ between.handles.keys.filter between.handleClosed := by
      intro member
      have isClosed := of_mem_filter member
      unfold handleClosed at isClosed
      rw [unpublished.stored] at isClosed
      exact unpublished.opened (by simpa using isClosed)
    exact Traces.bind (advances_reclaimEach spared) (fun _ =>
      .bind advances_storeRequest fun _ => .pure _) between

theorem advances_handleClose {retain : Bool} (unpublished : db.Unpublished id handle)
    (spared : other = id -> retain = true) (request : String) :
    Relation.ReflTransGen (Advances id generation) db
      ((handleClose other retain request : Call H RequestResult).run db).2 := by
  apply traces_onceOnly_at
  intro fingerprint
  apply Traces.bind_at
  · exact Traces.exec .of_readOnly db
  · intro found between looked
    obtain ⟨stored, rfl⟩ := require_ok.1 (run_exec_eq_ok.1 looked)
    have finish : ∀ result, Traces (Advances id generation) (do
        storeRequest request "handle_close" fingerprint result
        return result : Call H RequestResult) := fun result =>
      .bind advances_storeRequest fun _ => .pure _
    by_cases isThis : other = id
    · -- The handle has unpublished content, so that it is retained.
      subst isThis
      obtain rfl := Option.mem_unique stored unpublished.stored
      have dirty : found.dirtyGeneration > found.publishedGeneration := unpublished.dirty
      rw [spared rfl]
      simp only [dirty, decide_true, Bool.and_self]
      refine Traces.bind (.exec (.write fun db => .of_rows rfl ?_ fun _ _ =>
        ⟨rfl, fun _ => rfl⟩)) (fun _ => finish _) between
      intro current currentStored
      refine ⟨.retained, current.ownerSession, ?_, fun _ => nofun⟩
      change (db.handles.update _).get other = _
      rw [get_update, currentStored]
      simp only [Option.map_some, if_true]
    · have different : id ≠ other := fun equal => isThis equal.symm
      have others : ∀ (db : Db H) change, (db.updateHandle other change).handles.get id =
          db.handles.get id := by
        intro db _
        exact Table.get_update_of_kept _ fun _ => if_neg different
      refine Traces.bind (.exec (.write fun db => .of_same rfl (others db _) rfl
        fun _ => rfl)) (fun _ => .ite ?_ (finish _)) between
      exact .call (advances_dropChunks different) fun _ =>
        .call (advances_dropStaging different) fun _ => finish _

end

/-! ## Runs -/

/-- The operations of mount sessions, publishing, closing and reclaiming. -/
def Op.ofSessions : Op -> Prop
  | .sessionStart _ | .sessionHeartbeat _ | .sessionEnd _ | .handlePublish .. | .synchronize ..
  | .publishCloseAll .. | .reclaim _ | .handleClose .. => True
  | _ => False

/-- A handle is closed without retaining its content. -/
def Op.closes (id : Nat) (op : Op) : Prop := ∃ request, op = .handleClose id false request

/-- One operation keeps a handle with unpublished content, publishes it or closes it. -/
theorem Step.advances (workspace : String) {step : Step} (unpublished : db.Unpublished id handle)
    (listed : step.op.ofSessions) (stays : ¬ step.op.closes id) :
    Relation.ReflTransGen (Advances id handle.dirtyGeneration) db (step.run workspace db) := by
  obtain ⟨env, op⟩ := step
  cases op with
  | sessionStart => exact Traces.exec advances_sessionStart db
  | sessionHeartbeat => exact Traces.exec advances_sessionHeartbeat db
  | sessionEnd => exact Traces.exec advances_sessionEnd db
  | handlePublish =>
    exact traces_ignore advances_handlePublish db
  | synchronize => exact traces_ignore advances_synchronize db
  | publishCloseAll session limit =>
    apply traces_ignore_at
    rcases returned : publishCloseAll env session limit db with _ | ⟨_, _⟩
    · rw [Program.run_exec_error returned]
    · rw [run_exec_ok returned]
      exact .single (advances_publishCloseAll env session limit unpublished.stored rfl returned)
  | reclaim request => exact traces_ignore_at (advances_reclaim unpublished)
  | handleClose other retain request =>
    apply traces_ignore_at
    refine advances_handleClose unpublished (fun isThis => ?_) request
    cases retain with
    | true => rfl
    | false => exact absurd ⟨request, by rw [isThis]⟩ stays
  | _ => exact listed.elim

theorem Db.Sound.runSteps (sound : db.Sound) (workspace : String) (steps : List Step) :
    (runSteps workspace steps db).Sound := by
  induction steps generalizing db with
  | nil => exact sound
  | cons step steps next =>
    exact next (step.sound sound workspace)

/-- Over a run a handle with unpublished content is kept, unless at some operation
its content is published or it is closed. -/
theorem keptUnless (workspace : String) (sound : db.Sound)
    (unpublished : db.Unpublished id handle) (steps : List Step)
    (listed : ∀ step ∈ steps, step.op.ofSessions) :
    db.HandleKept (runSteps workspace steps db) id handle ∨
      ∃ earlier step later, steps = earlier ++ step :: later ∧
        db.HandleKept (runSteps workspace earlier db) id handle ∧
        (step.op.closes id ∨
          (runSteps workspace (earlier ++ [step]) db).PublishedAs id handle.dirtyGeneration) := by
  induction steps using reverseRecOn with
  | nil => exact .inl (.refl unpublished)
  | append_singleton steps step next =>
    rcases next fun other member => listed other (mem_append_left _ member) with
      kept | ⟨earlier, stop, later, rfl, kept, stopped⟩
    · by_cases closing : step.op.closes id
      · exact .inr ⟨steps, step, [], rfl, kept, .inl closing⟩
      · obtain ⟨now, nowUnpublished, nowSame, _, _, nowIs⟩ := kept.unpublished unpublished
        have ran := Advances.of_trace (step.advances workspace nowUnpublished
          (listed step (by simp)) closing)
        have split : runSteps workspace (steps ++ [step]) db =
            step.run workspace (runSteps workspace steps db) := by
          unfold runSteps
          rw [foldl_append, foldl_cons, foldl_nil]
        rw [<- split] at ran
        rcases (ran (sound.runSteps workspace steps)).2.1 now nowUnpublished rfl with
          keptNow | published
        · exact .inl (kept.trans keptNow nowIs)
        · rw [nowSame] at published
          exact .inr ⟨steps, step, [], rfl, kept, .inr published⟩
    · refine .inr ⟨earlier, stop, later ++ [step], ?_, kept, stopped⟩
      rw [append_assoc, cons_append]

/-! ## Starting a session -/

/-- A handle whose content a starting session takes over: it was retained, or
another session that holds the workspace left it open. -/
def Db.Inherited (db : Db H) (session : String) (handle : Handle) : Prop :=
  handle.state = .retained ∨ handle.state = .opened ∧ ∃ previous, db.mountSession = some previous ∧
    previous.sessionId ≠ session ∧ previous.sessionId ≠ "" ∧
    handle.ownerSession = some previous.sessionId

/-- The state after a starting session took over from another one. -/
def Db.takenOver (db : Db H) (session : String) : Db H :=
  match db.mountSession.filter fun previous => previous.sessionId ≠ session with
  | some previous =>
    if previous.sessionId ≠ "" then db.retainOpenHandles previous.sessionId else db
  | none => db

section

omit [DecidableEq H] [Digest H]

theorem sessionStart_claims (started : sessionStart env session db = .ok ((), after)) :
    after.handles = ((db.takenOver session).claimRetainedHandles session).handles := by
  unfold sessionStart at started
  simp only [bind_ok, rejectIf_ok, reading_ok] at started
  obtain ⟨_, _, ⟨_, rfl⟩, _, _, ⟨rfl, rfl⟩, _, start, ⟨_, rfl⟩, rest⟩ := started
  unfold takenOver
  cases found : start.mountSession.filter fun previous => previous.sessionId ≠ session with
  | none =>
    rw [found] at rest
    obtain ⟨_, _, rfl, rfl⟩ := rest
    rfl
  | some =>
    rw [found] at rest
    dsimp only at rest ⊢
    split_ifs at rest ⊢ with named
    · obtain ⟨_, _, rfl, _, _, rfl, rfl⟩ := rest
      rfl
    · obtain ⟨_, _, rfl, rfl⟩ := rest
      rfl

/-- Unpublished content that a session inherits is retained when it takes over. -/
theorem Db.Inherited.retained (inherited : db.Inherited session handle)
    (unpublished : db.Unpublished id handle) :
    (db.takenOver session).handles.get id = some { handle with state := .retained } := by
  have kept : ∀ previous, handle.state = .retained ->
      (db.retainOpenHandles previous).handles.get id = some handle := by
    intro _ retained
    change (db.handles.update _).get id = _
    rw [get_update, unpublished.stored, Option.map_some]
    unfold retain
    rw [retained, if_neg fun both => HandleState.noConfusion both.1]
  unfold takenOver
  rcases inherited with retained | ⟨opened, _, mounted, other, named, owned⟩
  · have same : ({ handle with state := .retained } : Handle) = handle := by rw [<- retained]
    rw [same]
    split
    · split_ifs
      · exact kept _ retained
      · exact unpublished.stored
    · exact unpublished.stored
  · rw [mounted, Option.filter_some, if_pos (decide_eq_true other)]
    dsimp only
    rw [if_pos named]
    change (db.handles.update _).get id = _
    rw [get_update, unpublished.stored, Option.map_some]
    unfold retain
    rw [if_pos ⟨opened, owned⟩, if_pos (handle.dirty_iff.2 unpublished.dirty)]

variable (started : sessionStart env session db = .ok ((), after))
include started

theorem sessionStart_inherits (unpublished : db.Unpublished id handle)
    (inherited : db.Inherited session handle) :
    after.handles.get id =
      some { handle with state := .opened, ownerSession := some session } := by
  rw [sessionStart_claims started]
  change ((db.takenOver session).handles.update _).get id = _
  rw [get_update, inherited.retained unpublished, Option.map_some]
  unfold claim
  rw [if_pos ⟨rfl, (dirty_iff _).2 unpublished.dirty⟩]

/-- After a session has started, no unpublished content is left retained. -/
theorem sessionStart_opens (unpublished : after.Unpublished id handle) :
    handle.state = .opened := by
  have stored := unpublished.stored
  rw [sessionStart_claims started] at stored
  change ((db.takenOver session).handles.update _).get id = _ at stored
  rw [get_update] at stored
  obtain ⟨before, _, rfl⟩ := Option.map_eq_some_iff.1 stored
  have dirty := unpublished.dirty
  have opened := unpublished.opened
  unfold claim at dirty opened ⊢
  split_ifs at dirty opened ⊢ with claimed
  · rfl
  · cases state : before.state with
    | opened => rfl
    | retained => exact absurd ⟨state, before.dirty_iff.2 dirty⟩ claimed
    | closed => exact absurd state opened

end

/-- From any reachable state, over any run of session changes, publishing, closing
and reclaiming, a handle with unpublished content keeps its staged bytes and stays
open or retained until it is published or closed without retaining; and a session
that starts owns all unpublished content that was retained. -/
theorem unpublished_content_survives {workspace : String} {allowed : Db H -> Step -> Prop}
    {db : Db H} (reached : Reachable workspace allowed db) (steps : List Step)
    (listed : ∀ step ∈ steps, step.op.ofSessions) :
    (∀ id handle, db.Unpublished id handle ->
      (db.HandleKept (runSteps workspace steps db) id handle ∧
        ∀ offset length bytes, db.readStagingRange id offset length = .ok bytes ->
          (runSteps workspace steps db).readStagingRange id offset length = .ok bytes) ∨
      ∃ earlier step later, steps = earlier ++ step :: later ∧
        db.HandleKept (runSteps workspace earlier db) id handle ∧
        (step.op.closes id ∨
          (runSteps workspace (earlier ++ [step]) db).PublishedAs id handle.dirtyGeneration)) ∧
    ∀ env session after, sessionStart env session (runSteps workspace steps db) = .ok ((), after) ->
      (∀ id handle, (runSteps workspace steps db).Unpublished id handle ->
        (runSteps workspace steps db).Inherited session handle -> after.handles.get id =
            some { handle with state := .opened, ownerSession := some session }) ∧
      ∀ id handle, after.Unpublished id handle -> handle.state = .opened := by
  refine ⟨fun id handle unpublished => ?_, fun env session after started => ⟨?_, ?_⟩⟩
  · rcases keptUnless workspace reached.sound unpublished steps listed with kept | stopped
    · exact .inl ⟨kept, fun _ _ _ read => kept.reads read⟩
    · exact .inr stopped
  · intro id handle unpublished inherited
    exact sessionStart_inherits started unpublished inherited
  · intro id _ unpublished
    exact sessionStart_opens started unpublished

end

/-- A session stages content in a new file and leaves it unpublished. -/
def stagedTrial : Db Verbatim :=
  trial [.sessionStart "first", .handleCreate 7 [47, 102] 0o644 none "" (some "first"),
    .handleStageWrite 7 0 [1, 2, 3] ""]

/-- The handle of `stagedTrial`. -/
def stagedHandle : Handle where
  inode := 2
  writable := true
  expectedVersion := 0
  dirtyGeneration := 2
  publishedGeneration := 0
  state := .opened
  ownerSession := some "first"

theorem stagedTrial_unpublished : stagedTrial.Unpublished 7 stagedHandle :=
  ⟨by decide +kernel, by decide, by decide⟩

theorem unpublished_content_survives_takeover :
    stagedTrial.Unpublished 7 stagedHandle ∧
      ((stagedTrial.HandleKept (runSteps "work" [⟨⟨90000, 0, 0⟩, .sessionStart "second"⟩]
          stagedTrial) 7 stagedHandle ∧
        ∀ offset length bytes, stagedTrial.readStagingRange 7 offset length = .ok bytes ->
          (runSteps "work" [⟨⟨90000, 0, 0⟩, .sessionStart "second"⟩]
            stagedTrial).readStagingRange 7 offset length = .ok bytes) ∨
      ∃ earlier step later, [⟨⟨90000, 0, 0⟩, .sessionStart "second"⟩] = earlier ++ step :: later ∧
        stagedTrial.HandleKept (runSteps "work" earlier stagedTrial) 7 stagedHandle ∧
        (step.op.closes 7 ∨ (runSteps "work" (earlier ++ [step]) stagedTrial).PublishedAs 7 2)) :=
  ⟨stagedTrial_unpublished,
    (unpublished_content_survives (reachable_trial _) [⟨⟨90000, 0, 0⟩, .sessionStart "second"⟩]
      fun _ member => by rw [mem_singleton.1 member]; trivial).1 7 stagedHandle
      stagedTrial_unpublished⟩

end VexDB.VexFs
