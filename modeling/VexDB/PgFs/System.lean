import VexDB.PgFs.Retention
import VexDB.VexFs.System

/-!
# The PostgreSQL file system as a state machine

The public functions as operations on the tables of a workspace.  Every call is
one transaction: it takes effect as a whole or, when it raises an error, not at
all.  Any role may call any function at any time, with any clock.
-/

namespace VexDB.PgFs

open Storage Table
open VexFs (Bytes Name Effect Digest OpenFlags Durability SnapshotType Verbatim slash)

/-- A call of a public function that can change the tables. -/
inductive Op
  | mkdir (path : Bytes) (recursive : Bool)
  | create (path : Bytes) (directory : Bool) (mode : Nat)
  | createBatch (parent : Bytes) (entries : List BatchEntry)
  | symlink (path target : Bytes)
  | link (source target : Bytes)
  | write (path content : Bytes)
  | writeRange (path : Bytes) (offset : Nat) (content : Bytes) (request : String)
      (session : Option String) (durability : Durability)
  | append (inode : Nat) (content : Bytes)
  | restoreVersion (path : Bytes) (number expected : Nat)
  | move (source target : Bytes)
  | rename (source target : Bytes) (replace : Bool)
  | remove (path : Bytes) (recursive : Bool)
  | setMode (inode mode : Nat)
  | setTimes (inode : Nat) (times : Times)
  | chown (inode : Nat) (uid gid : Option Nat)
  | ownerSet (path : Bytes) (owner : String)
  | xattrSet (inode : Nat) (name : Name) (value : Bytes) (policy : XattrPolicy)
  | aclSet (inode : Nat) (acl : List AclEntry)
  | aclGrant (inode : Nat) (entry : AclEntry)
  | aclRevoke (inode : Nat) (principal : String) (effect : Option Effect)
  | aclDelete (inode : Nat)
  | handleOpen (path : Bytes) (flags : OpenFlags) (request : String) (session : Option String)
  | handleCreate (path : Bytes) (mode : Nat) (request : String) (session : Option String)
  | handleCreateOwned (path : Bytes) (mode uid gid : Nat) (request session : String)
  | handleStageWrite (id offset : Nat) (content : Bytes) (request : String)
  | handleTruncate (id size : Nat) (request : String)
  | handleRead (id offset length : Nat)
  | handlePublish (id generation : Nat) (durability : Durability) (request : String)
  | handlePublishClose (id generation : Nat) (durability : Durability)
  | handleAppend (id : Nat) (content : Bytes) (request : String)
  | handleClose (id : Nat) (retain : Bool) (request : String)
  | mountPublishCloseAll (session : String) (durability : Durability) (limit : Nat)
  | mountPublishCloseClaimed (session : String) (durability : Durability)
      (claims : List (Nat × Nat))
  | mountSynchronize (request : String) (session : Option String)
  | mountSessionStart (session : String)
  | mountSessionHeartbeat (session : String)
  | mountSessionEnd (session : String)
  | itemReclaim (request : String)
  | snapshotCreate (name : String) (expectedHead : Option Nat) (consistent : Bool)
      (type : SnapshotType)
  | snapshotDrop (name : String)
  | snapshotPolicySet (agentKeep safetyKeep keepDays : Nat)
  | snapshotPrune (dryRun : Bool)
  | snapshotRestore (name : String) (expectedHead : Nat) (safety caller : Option String)
  | quotaSet (maxBytes maxFiles maxFileBytes : Option Nat)
  | retentionSet (keepVersions keepDays : Nat)
  | gcPause (paused : Bool)
  | gc (batch : Nat)
  | elsewhere (drawn : Sequences)

variable {H : Type} [DecidableEq H] [Digest H]

/-- What other workspaces and failed calls do to the sequences. -/
def Sequences.draw (sequences drawn : Sequences) : Sequences :=
  ⟨max sequences.inode drawn.inode, max sequences.aclSet drawn.aclSet,
    max sequences.manifest drawn.manifest, max sequences.chunk drawn.chunk,
    max sequences.snapshot drawn.snapshot⟩

/-- The statements of an operation. -/
def Op.call (env : Env) : Op -> Sql H Unit
  | .mkdir path recursive => Tx.discard (PgFs.mkdir env path recursive)
  | .create path directory mode => Tx.discard (PgFs.create env path directory mode)
  | .createBatch parent entries => PgFs.createBatch env parent entries
  | .symlink path target => Tx.discard (PgFs.symlink env path target)
  | .link source target => Tx.discard (PgFs.link env source target)
  | .write path content => Tx.discard (PgFs.write env path content)
  | .writeRange path offset content request session durability =>
    Tx.discard (PgFs.writeRange env path offset content request session durability)
  | .append inode content => Tx.discard (PgFs.append env inode content)
  | .restoreVersion path number expected =>
    Tx.discard (PgFs.restoreVersion env path number expected)
  | .move source target => PgFs.move env source target
  | .rename source target replace => PgFs.rename env source target replace
  | .remove path recursive => PgFs.remove env path recursive
  | .setMode inode mode => PgFs.setMode env inode mode
  | .setTimes inode times => PgFs.setTimes env inode times
  | .chown inode uid gid => PgFs.chown env inode uid gid
  | .ownerSet path owner => PgFs.ownerSet env path owner
  | .xattrSet inode name value policy => PgFs.xattrSet env inode name value policy
  | .aclSet inode acl => PgFs.aclSet env inode acl
  | .aclGrant inode entry => PgFs.aclGrant env inode entry
  | .aclRevoke inode principal effect => PgFs.aclRevoke env inode principal effect
  | .aclDelete inode => PgFs.aclDelete env inode
  | .handleOpen path flags request session =>
    Tx.discard (PgFs.handleOpen env path flags request session)
  | .handleCreate path mode request session =>
    Tx.discard (PgFs.handleCreate env path mode request session)
  | .handleCreateOwned path mode uid gid request session =>
    Tx.discard (PgFs.handleCreateOwned env path mode uid gid request session)
  | .handleStageWrite id offset content request =>
    Tx.discard (PgFs.handleStageWrite env id offset content request)
  | .handleTruncate id size request => Tx.discard (PgFs.handleTruncate env id size request)
  | .handleRead id offset length => Tx.discard (PgFs.handleRead env id offset length)
  | .handlePublish id generation durability request =>
    Tx.discard (PgFs.handlePublish env id generation durability request)
  | .handlePublishClose id generation durability =>
    Tx.discard (PgFs.handlePublishClose env id generation durability)
  | .handleAppend id content request => Tx.discard (PgFs.handleAppend env id content request)
  | .handleClose id retain request => Tx.discard (PgFs.handleClose env id retain request)
  | .mountPublishCloseAll session durability limit =>
    Tx.discard (PgFs.mountPublishCloseAll env session durability limit)
  | .mountPublishCloseClaimed session durability claims =>
    Tx.discard (PgFs.mountPublishCloseClaimed env session durability claims)
  | .mountSynchronize request session => Tx.discard (PgFs.mountSynchronize env request session)
  | .mountSessionStart session => PgFs.mountSessionStart env session
  | .mountSessionHeartbeat session => PgFs.mountSessionHeartbeat env session
  | .mountSessionEnd session => PgFs.mountSessionEnd env session
  | .itemReclaim request => Tx.discard (PgFs.itemReclaim env request)
  | .snapshotCreate name expectedHead consistent type =>
    Tx.discard (PgFs.snapshotCreate env name expectedHead consistent type)
  | .snapshotDrop name => PgFs.snapshotDrop env name
  | .snapshotPolicySet agentKeep safetyKeep keepDays =>
    PgFs.snapshotPolicySet env agentKeep safetyKeep keepDays
  | .snapshotPrune dryRun => Tx.discard (PgFs.snapshotPrune env dryRun)
  | .snapshotRestore name expectedHead safety caller =>
    Tx.discard (PgFs.snapshotRestore env name expectedHead safety caller)
  | .quotaSet maxBytes maxFiles maxFileBytes => PgFs.quotaSet env maxBytes maxFiles maxFileBytes
  | .retentionSet keepVersions keepDays => PgFs.retentionSet env keepVersions keepDays
  | .gcPause paused => PgFs.gcPause env paused
  | .gc batch => Tx.discard (PgFs.gc env batch)
  | .elsewhere drawn =>
    Tx.write fun db => { db with sequences := db.sequences.draw drawn }

/-- An operation with the environment it runs in. -/
structure Step where
  env : Env
  op : Op

/-- The state a call leaves: the old one if it raises an error. -/
def settle {α : Type} (call : Sql H α) (db : Db H) : Db H :=
  match call db with
  | .ok (_, after) => after
  | .error _ => db

/-- The state after an operation. -/
def Step.run (step : Step) (db : Db H) : Db H := settle (step.op.call step.env) db

/-- The state after operations one after another. -/
def runSteps (steps : List Step) (db : Db H) : Db H :=
  steps.foldl (fun db step => step.run db) db

/-! ## A new workspace -/

/-- The row of a workspace before its root exists. -/
def newWorkspace (env : Env) : Workspace where
  ownerOid := env.user.oid
  rootInode := 0
  headCommit := 0
  historyFloor := 0
  quotaMaxBytes := none
  quotaMaxFiles := none
  quotaMaxFileBytes := none
  retentionKeepVersions := 32
  retentionKeepDays := 30
  snapshotAgentKeep := 20
  snapshotSafetyKeep := 10
  snapshotKeepDays := 30
  gcPaused := false

/-- The tables before the workspace is created. -/
def blank (env : Env) (sequences : Sequences) : Db H where
  workspace := newWorkspace env
  sequences := sequences
  aclSets := empty
  tree := ⟨empty, empty, empty, [], empty, empty, 0, 0⟩
  history := ⟨[], empty, empty, empty, empty⟩
  store := ⟨empty, empty, empty, empty⟩
  mounts := ⟨empty, empty, empty, empty, empty⟩
  batch := none

/-- `vexfs_workspace_create`. -/
def workspaceCreate (env : Env) : Sql H Unit := do
  let root <- insertInode (newInode env .directory 493 0 0)
  onWorkspace fun workspace => { workspace with rootInode := root }
  let _ <- recordCommit [slash]

/-- The state of a new workspace. -/
def initial (env : Env) (sequences : Sequences) : Db H :=
  settle (workspaceCreate env) (blank env sequences)

/-- The states that operations lead to from a new workspace, when every operation
is allowed in the state in which it starts. -/
inductive Reachable (allowed : Db H -> Step -> Prop) : Db H -> Prop
  | initial (env : Env) (sequences : Sequences) : Reachable allowed (initial env sequences)
  | step {db : Db H} (step : Step) (reached : Reachable allowed db) (may : allowed db step) :
      Reachable allowed (step.run db)

theorem Reachable.runSteps {db : Db H} (reached : Reachable (fun _ _ => True) db)
    {steps : List Step} : Reachable (fun _ _ => True) (PgFs.runSteps steps db) := by
  induction steps generalizing db with
  | nil => exact reached
  | cons step steps next => exact next (reached.step step trivial)

/-- The role that owns the workspaces of trials. -/
def owner : User := ⟨10, "owner", false, []⟩

/-- A role without rights of its own. -/
def guest : User := ⟨20, "guest", false, []⟩

/-- Operations one after another on a new workspace, at one time, by the roles given. -/
def trial (operations : List (User × Op)) : Db Verbatim :=
  runSteps (operations.map fun call => ⟨⟨call.1, 5000, 7, "request"⟩, call.2⟩)
    (initial ⟨owner, 5000, 7, "request"⟩ ⟨0, 0, 0, 0, 0⟩)

theorem reachable_trial (operations : List (User × Op)) :
    Reachable (fun _ _ => True) (trial operations) :=
  (Reachable.initial _ _).runSteps

end VexDB.PgFs
