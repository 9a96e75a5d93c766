import Mathlib.Data.List.Sort
import VexDB.VexFs.Handles

/-!
# Mount sessions

A session holds a lease on the workspace.  When a session ends, or another one
takes over after the lease ran out, the handles it left open are retained if
they have unpublished content and closed otherwise; the next session claims the
retained ones.
-/

namespace VexDB.VexFs

open Storage Tx
open Program (exec)

variable {H : Type}

namespace Handle

/-- The handle has content that was not published. -/
def dirty (handle : Handle) : Bool := decide (handle.dirtyGeneration > handle.publishedGeneration)

/-- What `RetainOpenHandles` makes of an open handle of the session that left. -/
def retain (handle : Handle) (session : String) : Handle :=
  if handle.state = .opened ∧ handle.ownerSession = some session then
    { handle with state := if handle.dirty then .retained else .closed }
  else handle

/-- What `ClaimRetainedHandles` makes of a handle. -/
def claim (handle : Handle) (session : String) : Handle :=
  if handle.state = .retained ∧ handle.dirty then
    { handle with state := .opened, ownerSession := some session }
  else handle

end Handle

namespace Db

/-- The handle is closed. -/
def handleClosed (db : Db H) (id : Nat) : Bool :=
  (db.handles.get id).any fun handle => handle.state = .closed

/-- `RetainOpenHandles` for the handles of a session. -/
def retainOpenHandles (db : Db H) (session : String) : Db H :=
  let retained := { db with handles := db.handles.update fun _ row => row.retain session }
  retained.dropStaging retained.handleClosed

/-- `ClaimRetainedHandles`. -/
def claimRetainedHandles (db : Db H) (session : String) : Db H :=
  { db with handles := db.handles.update fun _ row => row.claim session }

/-- A mount session whose lease has not run out. -/
def activeSession (db : Db H) (env : Env) : Option MountSession :=
  db.mountSession.filter fun session => session.leaseUntil > env.seconds

end Db

/-- `vexfs_session_start`. -/
def sessionStart (env : Env) (session : String) : Sql H Unit := do
  rejectIf (session = "") ⟨"session_id must not be empty", .mismatch⟩
  let db <- reading id
  let others := db.mountSession.filter fun previous => previous.sessionId ≠ session
  rejectIf ((db.activeSession env).any fun previous => previous.sessionId ≠ session)
    ⟨"workspace already has an active mount session", .busy⟩
  match others with
  | some previous =>
    if previous.sessionId ≠ "" then
      Tx.write fun db => db.retainOpenHandles previous.sessionId
  | none => pure ()
  Tx.write fun db => db.claimRetainedHandles session
  Tx.write fun db => { db with mountSession := some ⟨session, env.seconds + 30000⟩ }

/-- `vexfs_session_heartbeat`. -/
def sessionHeartbeat (env : Env) (session : String) : Sql H Unit := do
  rejectIf (session = "") ⟨"session_id must not be empty", .mismatch⟩
  let db <- reading id
  rejectIf (!db.mountSession.any fun current => current.sessionId = session)
    ⟨"mount session is stale", .busy⟩
  Tx.write fun db => { db with mountSession := some ⟨session, env.seconds + 30000⟩ }

/-- `vexfs_session_end`. -/
def sessionEnd (session : String) : Sql H Unit := do
  rejectIf (session = "") ⟨"session_id must not be empty", .mismatch⟩
  Tx.write fun db => db.retainOpenHandles session
  Tx.write fun db =>
    { db with mountSession := db.mountSession.filter fun current => current.sessionId ≠ session }

variable [DecidableEq H] [Digest H]

/-- The handles that satisfy a condition, by id, with their dirty generations. -/
def Db.pendingHandles (db : Db H) (condition : Handle -> Bool) : List (Nat × Nat) :=
  ((db.handles.entries.filter fun entry => condition entry.2).map
    fun entry => (entry.1, entry.2.dirtyGeneration)).insertionSort fun left right =>
      left.1 <= right.1

/-- The handles that `vexfs_mount_synchronize` publishes. -/
def synchronizes (session : Option String) (handle : Handle) : Bool :=
  handle.dirty &&
    match session with
    | some owner => handle.state = .opened && handle.ownerSession = some owner
    | none => handle.state ≠ .closed && handle.ownerSession = none

/-- `PublishHandle` for each of some handles, one savepoint each. -/
def publishEach (env : Env) : List (Nat × Nat) -> Call H Unit
  | [] => return ()
  | (id, generation) :: pending => do
    let handle <- exec (findHandle id)
    let _ <- exec (publishHandleInTransaction env id handle generation)
    publishEach env pending

/-- `vexfs_mount_synchronize`. -/
def synchronize (env : Env) (workspace request : String) (session : Option String) :
    Call H RequestResult :=
  onceOnly request "mount_synchronize" [textBytes workspace, textBytes (session.getD "")]
    fun fingerprint => do
    let pending <- exec (reading fun db => db.pendingHandles (synchronizes session))
    publishEach env pending
    storeRequest request "mount_synchronize" fingerprint (.integer pending.length)
    return .integer pending.length

/-- The handles that `vexfs_publish_close_all` publishes. -/
def publishesAndCloses (session : String) (handle : Handle) : Bool :=
  handle.ownerSession = some session && handle.state = .opened && handle.writable && handle.dirty

/-- `vexfs_publish_close_all`; a limit of 0 is no limit. -/
def publishCloseAll (env : Env) (session : String) (limit : Int) : Sql H Nat := do
  rejectIf (session = "") ⟨"owner_session must not be empty", .mismatch⟩
  rejectIf (limit < 0) ⟨"limit must be zero or positive", .range⟩
  let all <- reading fun db => db.pendingHandles (publishesAndCloses session)
  let pending := if limit = 0 then all else all.take limit.toNat
  pending.forM fun item => do
    let _ <- handlePublishClose env item.1 item.2
  return pending.length

/-- The three statements `vexfs_item_reclaim` makes for each closed handle. -/
def reclaimEach : List Nat -> Call H Unit
  | [] => return ()
  | id :: rest => do
    exec (Tx.write fun db => { db with
      stagingChunks := db.stagingChunks.filter fun key _ => key.1 ≠ id })
    exec (Tx.write fun db => { db with staging := db.staging.filter fun other _ => other ≠ id })
    exec (Tx.write fun db => { db with handles := db.handles.erase id })
    reclaimEach rest

/-- `vexfs_item_reclaim`. -/
def reclaim (workspace request : String) : Call H RequestResult :=
  onceOnly request "item_reclaim" [textBytes workspace] fun fingerprint => do
    let closed <- exec (reading fun db =>
      db.handles.keys.filter db.handleClosed)
    reclaimEach closed
    storeRequest request "item_reclaim" fingerprint (.integer closed.length)
    return .integer closed.length

end VexDB.VexFs
