import VexDB.VexFs.Retention

/-!
# The file system as a state machine

The public calls as operations on the database.  An operation runs to its end
before the next one starts; what it leaves behind when it fails is what its
statements outside savepoints had already done.  `elsewhere` stands for
whatever other workspaces of the same database do.
-/

namespace VexDB.VexFs

open Storage Table
open Program (exec)

/-- A call of a public SQL function that can change the tables. -/
inductive Op
  | mkdir (path : Bytes)
  | create (path : Bytes) (kind : Kind) (mode : Nat)
  | symlink (path target : Bytes)
  | link (source destination : Bytes)
  | write (path content : Bytes)
  | append (inode : Nat) (suffix : Bytes)
  | rename (source destination : Bytes) (replace : Bool)
  | remove (path : Bytes) (recursive : Bool)
  | restoreVersion (path : Bytes) (target expected : Nat)
  | setMode (inode mode : Nat)
  | setTimes (inode : Nat) (times : Times)
  | chown (inode : Nat) (uid gid : Option Nat)
  | ownerSet (path : Bytes) (owner : String)
  | aclSet (inode : Nat) (entries : List AclEntry)
  | aclDelete (inode : Nat)
  | aclGrant (inode : Nat) (principal permissions : String) (effect : Effect)
  | aclRevoke (inode : Nat) (principal : String) (effect : Option Effect)
  | setXattr (inode : Nat) (name : Name) (value : Bytes) (policy : XattrPolicy)
  | handleCreate (id : Nat) (path : Bytes) (mode : Nat) (owner : Option (Int × Int))
      (request : String) (session : Option String)
  | handleOpen (id : Nat) (path : Bytes) (flags : OpenFlags) (request : String)
      (session : Option String)
  | handleStageWrite (id : Nat) (offset : Int) (patch : Bytes) (request : String)
  | handleTruncate (id : Nat) (size : Int) (request : String)
  | handlePublish (id generation : Nat) (durability : Durability) (request : String)
  | handlePublishClose (id generation : Nat)
  | handleAppend (id : Nat) (suffix : Bytes) (request : String)
  | handleClose (id : Nat) (retain : Bool) (request : String)
  | sessionStart (session : String)
  | sessionHeartbeat (session : String)
  | sessionEnd (session : String)
  | synchronize (request : String) (session : Option String)
  | publishCloseAll (session : String) (limit : Int)
  | reclaim (request : String)
  | snapshotCreate (name : String) (expected : Option Nat) (consistent : Bool)
      (type : SnapshotType)
  | snapshotCreateAtCommit (name : String) (commit : Nat) (type : SnapshotType)
  | snapshotCreateAtTime (name : String) (time : Nat) (type : SnapshotType)
  | snapshotDrop (name : String)
  | snapshotPolicySet (agentKeep safetyKeep keepDays : Nat)
  | snapshotPrune
  | snapshotRestore (name : String) (expected : Nat) (safety : Option String)
  | quotaSet (maxBytes maxFiles maxFileBytes : Option Nat)
  | retentionSet (keepVersions keepDays : Nat)
  | gcPause (paused : Bool)
  | gc (batch : Nat)
  | elsewhere (ids : RowIds)

variable {H : Type} [DecidableEq H] [Digest H]

/-- A call that takes a path: the path is parsed first. -/
def withPath {α : Type} (path : Bytes) (body : List Name -> Call H α) : Call H Unit := do
  let parts <- exec (parsed path)
  let _ <- body parts

/-- A call on a handle, without its result. -/
def Program.ignore {α : Type} (call : Call H α) : Call H Unit := do
  let _ <- call

/-- The statements of an operation; `workspace` is the name of the workspace. -/
def Op.call (workspace : String) (env : Env) : Op -> Call H Unit
  | .mkdir path => withPath path fun parts => VexFs.mkdir env parts
  | .create path kind mode => withPath path fun parts => exec (VexFs.create env parts kind mode)
  | .symlink path target => withPath path fun parts => exec (VexFs.symlink env parts target)
  | .link source destination => withPath source fun parts =>
    withPath destination fun other => exec (VexFs.hardlink env parts other)
  | .write path content => withPath path fun parts => exec (VexFs.write env parts content)
  | .append inode suffix => Program.ignore (exec (VexFs.append env inode suffix))
  | .rename source destination replace => withPath source fun parts =>
    withPath destination fun other => VexFs.rename env parts other replace
  | .remove path recursive => withPath path fun parts => VexFs.remove env parts recursive
  | .restoreVersion path target expected => withPath path fun parts =>
    exec (VexFs.restoreVersion env parts target expected)
  | .setMode inode mode => exec (VexFs.setMode env inode mode)
  | .setTimes inode times => exec (VexFs.setTimes env inode times)
  | .chown inode uid gid => exec (VexFs.chown env inode uid gid)
  | .ownerSet path owner => withPath path fun parts => exec (VexFs.ownerSet env parts owner)
  | .aclSet inode entries => exec (VexFs.aclSet env inode entries)
  | .aclDelete inode => exec (VexFs.aclDelete env inode)
  | .aclGrant inode principal permissions effect =>
    exec (VexFs.aclGrant env inode principal permissions effect)
  | .aclRevoke inode principal effect => exec (VexFs.aclRevoke env inode principal effect)
  | .setXattr inode name value policy => exec (VexFs.setXattr env inode name value policy)
  | .handleCreate id path mode owner request session =>
    Program.ignore (VexFs.handleCreate env id workspace path mode owner request session)
  | .handleOpen id path flags request session =>
    Program.ignore (VexFs.handleOpen env id workspace path flags request session)
  | .handleStageWrite id offset patch request =>
    Program.ignore (VexFs.handleStageWrite id offset patch request)
  | .handleTruncate id size request => Program.ignore (VexFs.handleTruncate id size request)
  | .handlePublish id generation durability request =>
    Program.ignore (VexFs.handlePublish env id generation durability request)
  | .handlePublishClose id generation =>
    Program.ignore (exec (VexFs.handlePublishClose env id generation))
  | .handleAppend id suffix request => Program.ignore (VexFs.handleAppend env id suffix request)
  | .handleClose id retain request => Program.ignore (VexFs.handleClose id retain request)
  | .sessionStart session => exec (VexFs.sessionStart env session)
  | .sessionHeartbeat session => exec (VexFs.sessionHeartbeat env session)
  | .sessionEnd session => exec (VexFs.sessionEnd session)
  | .synchronize request session =>
    Program.ignore (VexFs.synchronize env workspace request session)
  | .publishCloseAll session limit =>
    Program.ignore (exec (VexFs.publishCloseAll env session limit))
  | .reclaim request => Program.ignore (VexFs.reclaim workspace request)
  | .snapshotCreate name expected consistent type =>
    Program.ignore (exec (VexFs.snapshotCreate env name expected consistent type))
  | .snapshotCreateAtCommit name commit type =>
    Program.ignore (exec (VexFs.snapshotCreateAtCommit env name commit type))
  | .snapshotCreateAtTime name time type =>
    Program.ignore (exec (VexFs.snapshotCreateAtTime env name time type))
  | .snapshotDrop name => exec (VexFs.snapshotDrop name)
  | .snapshotPolicySet agentKeep safetyKeep keepDays =>
    exec (VexFs.snapshotPolicySet agentKeep safetyKeep keepDays)
  | .snapshotPrune => exec (VexFs.snapshotPrune env)
  | .snapshotRestore name expected safety =>
    Program.ignore (exec (VexFs.snapshotRestore env name expected safety))
  | .quotaSet maxBytes maxFiles maxFileBytes =>
    exec (VexFs.quotaSet maxBytes maxFiles maxFileBytes)
  | .retentionSet keepVersions keepDays => exec (VexFs.retentionSet keepVersions keepDays)
  | .gcPause paused => exec (VexFs.gcPause paused)
  | .gc batch => exec (VexFs.gc env batch)
  | .elsewhere ids => exec (Tx.write fun db => { db with elsewhere := ids })

/-- An operation with the environment it runs in. -/
structure Step where
  env : Env
  op : Op

/-- The state after an operation. -/
def Step.run (workspace : String) (step : Step) (db : Db H) : Db H :=
  ((step.op.call workspace step.env).run db).2

/-- The state after operations one after another. -/
def runSteps (workspace : String) (steps : List Step) (db : Db H) : Db H :=
  steps.foldl (fun db step => step.run workspace db) db

/-! ## A new workspace -/

/-- The row of a workspace before its root exists. -/
def newWorkspace : Workspace where
  rootInode := 0
  headCommit := 0
  historyFloor := none
  retentionKeepVersions := 32
  retentionKeepDays := 30
  snapshotAgentKeep := 20
  snapshotSafetyKeep := 10
  snapshotKeepDays := 30
  gcPaused := false
  quotaMaxBytes := none
  quotaMaxFiles := none
  quotaMaxFileBytes := none
  liveFiles := 0
  liveBytes := 0

/-- The tables before the workspace is created. -/
def blank (elsewhere : RowIds) : Db H where
  workspace := newWorkspace
  inodes := empty
  dentries := empty
  xattrs := empty
  aclEntries := empty
  commits := empty
  inodeStates := empty
  dentryStates := empty
  xattrStates := empty
  aclStates := empty
  dirtyInodes := []
  dirtyDentries := empty
  dirtyXattrs := []
  dirtyAcl := []
  versions := empty
  manifests := empty
  manifestChunks := empty
  chunks := empty
  snapshots := empty
  handles := empty
  staging := empty
  stagingChunks := empty
  mountSession := none
  requests := empty
  elsewhere := elsewhere

/-- `vexfs_workspace_create`. -/
def workspaceCreate (env : Env) : Sql H Unit := do
  let root <- createInode env .directory 0o755
  Tx.write fun db => { db with workspace.rootInode := root }
  Tx.write fun db => db.setAcl ⟨root, "local", .allow⟩
    ⟨"traverse,list,read,write,create,delete,rename,history,snapshot,share,admin", 1⟩
  let _ <- createCommit env

/-- The state of a new workspace. -/
def initial (env : Env) (elsewhere : RowIds) : Db H :=
  Program.effect (workspaceCreate env) (blank elsewhere)

/-- The states that operations lead to from a new workspace, when every operation
is allowed in the state in which it starts. -/
inductive Reachable (workspace : String) (allowed : Db H -> Step -> Prop) : Db H -> Prop
  | initial (env : Env) (elsewhere : RowIds) : Reachable workspace allowed (initial env elsewhere)
  | step {db : Db H} (step : Step) (reached : Reachable workspace allowed db)
      (may : allowed db step) : Reachable workspace allowed (step.run workspace db)

theorem Reachable.runSteps {workspace : String} {db : Db H} {steps : List Step}
    (reached : Reachable workspace (fun _ _ => True) db) :
    Reachable workspace (fun _ _ => True) (runSteps workspace steps db) := by
  induction steps generalizing db with
  | nil => exact reached
  | cons step steps next => exact next (reached.step step trivial)

/-- A digest that copies what it digests, to run the system with. -/
structure Verbatim where
  parts : List (Nat × Bytes)
  deriving DecidableEq

instance : Digest Verbatim where
  sha256 bytes := ⟨[(bytes.length, bytes)]⟩
  manifestChecksum size chunkSize sums :=
    ⟨(size, []) :: (chunkSize, []) :: sums.flatMap fun sum => sum.2.parts⟩

/-- Operations one after another on a new workspace, at one time and as one user. -/
def trial (operations : List Op) : Db Verbatim :=
  runSteps "work" (operations.map (Step.mk ⟨5000, 0, 0⟩)) (initial ⟨5000, 0, 0⟩ ⟨0, 0, 0, 0, 0, 0⟩)

theorem reachable_trial (operations : List Op) :
    Reachable "work" (fun _ _ => True) (trial operations) :=
  (Reachable.initial _ _).runSteps

end VexDB.VexFs
