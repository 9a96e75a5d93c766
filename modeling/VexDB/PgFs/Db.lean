import VexDB.Storage.History
import VexDB.VexFs.Handles

/-!
# The tables of the PostgreSQL file system

One workspace of the schema `_vexfs` of the PostgreSQL extension.  The rows are
grouped by what writes them: the tree of inodes, directory entries and extended
attributes with the tables that its triggers fill; the history of recorded trees
and the snapshots that name points of it; the stored content; and the handles of
mounted clients.  A call of a SQL function is one transaction.
-/

namespace VexDB.PgFs

open Storage
open VexFs (Bytes Name Kind DentryKey XattrKey DentryState Effect Digest SnapshotType HandleState
  OpenFlags)

/-- An error raised by a SQL function: its message, without the values put into
it, and its SQLSTATE. -/
structure PgError where
  message : String
  sqlstate : String
  deriving DecidableEq, Repr

/-! ## The tree -/

/-- A row of `inodes`, and of `inode_states` without its key. -/
structure Inode where
  kind : Kind
  mode : Nat
  ownerOid : Nat
  ownerRole : String
  ownerPrincipal : String
  uid : Nat
  gid : Nat
  aclSet : Option Nat
  currentVersion : Nat
  size : Nat
  live : Bool
  createdAt : Nat
  accessedAt : Nat
  modifiedAt : Nat
  changedAt : Nat
  deriving DecidableEq, Repr

structure Xattr where
  value : Bytes
  updatedAt : Nat
  deriving DecidableEq, Repr

/-- The live rows, the keys changed since they were last recorded, and the two
counters of the workspace row that the triggers on inodes maintain. -/
structure Tree where
  inodes : Table Nat Inode
  dentries : Table DentryKey Nat
  xattrs : Table XattrKey Xattr
  dirtyInodes : List Nat
  dirtyDentries : Table DentryKey Nat
  dirtyXattrs : Table XattrKey Xattr
  liveFiles : Int
  liveBytes : Int

/-- One entry of an access control list. -/
structure AclEntry where
  principal : String
  effect : Effect
  permissions : String
  inherit : Nat
  deriving DecidableEq, Repr

/-! ## Recorded trees -/

structure XattrState where
  xattr : Xattr
  deleted : Bool
  deriving DecidableEq, Repr

structure Snapshot where
  id : Nat
  type : SnapshotType
  commit : Nat
  createdAt : Nat
  deriving DecidableEq, Repr

/-- The tables of recorded rows, under their keys and the commit they were
recorded at, the commits with a row in `metadata_checkpoints`, and the snapshots
by name. -/
structure History where
  checkpoints : List Nat
  inodeStates : Table (Nat × Nat) Inode
  dentryStates : Table (DentryKey × Nat) DentryState
  xattrStates : Table (XattrKey × Nat) XattrState
  snapshots : Table String Snapshot

/-! ## Content -/

/-- A row of `file_versions` under the inode and the version number: either with
a manifest, or an alias of an earlier version. -/
structure Version (H : Type) where
  commit : Nat
  manifest : Option Nat
  source : Option Nat
  size : Nat
  checksum : H
  createdAt : Nat

structure Manifest (H : Type) where
  fileSize : Nat
  chunkCount : Nat
  checksum : H

structure Chunk (H : Type) where
  content : Bytes
  size : Nat
  checksum : H

structure Store (H : Type) where
  versions : Table (Nat × Nat) (Version H)
  manifests : Table Nat (Manifest H)
  manifestChunks : Table (Nat × Nat) Nat
  chunks : Table Nat (Chunk H)

/-! ## Mounted clients -/

/-- A row of `handles` under its handle id.  A handle opened for a file that is
yet to be created has no inode. -/
structure Handle where
  inode : Option Nat
  path : Bytes
  flags : OpenFlags
  createMode : Option Nat
  ownerOid : Nat
  session : Option String
  expectedVersion : Nat
  dirtyGeneration : Nat
  publishedGeneration : Nat
  state : HandleState
  leaseUntil : Nat
  deriving DecidableEq, Repr

structure Staging where
  generation : Nat
  baseManifest : Option Nat
  baseSize : Nat
  baseVisibleSize : Nat
  logicalSize : Nat
  deriving DecidableEq, Repr

structure MountSession where
  ownerOid : Nat
  leaseUntil : Nat
  deriving DecidableEq, Repr

/-- The recorded outcome of a request. -/
inductive ReplayResult
  | integer (value : Nat)
  | handle (id : Nat)
  | state (value : HandleState)
  deriving DecidableEq, Repr

/-- An argument that goes into the digest of a request. -/
inductive Argument
  | null
  | integer (value : Int)
  | bytes (value : Bytes)
  | flag (value : Bool)
  deriving DecidableEq, Repr

/-- A row of `request_replays`; the digest of its arguments stands for them. -/
structure Replay where
  operation : String
  arguments : List Argument
  result : ReplayResult
  createdAt : Nat
  deriving DecidableEq, Repr

structure Mounts where
  handles : Table Nat Handle
  staging : Table Nat Staging
  stagingChunks : Table (Nat × Nat) Bytes
  sessions : Table String MountSession
  replays : Table (Nat × String) Replay

/-! ## The database -/

/-- The row of the workspace, without the counters of the tree. -/
structure Workspace where
  ownerOid : Nat
  rootInode : Nat
  headCommit : Nat
  historyFloor : Nat
  quotaMaxBytes : Option Nat
  quotaMaxFiles : Option Nat
  quotaMaxFileBytes : Option Nat
  retentionKeepVersions : Nat
  retentionKeepDays : Nat
  snapshotAgentKeep : Nat
  snapshotSafetyKeep : Nat
  snapshotKeepDays : Nat
  gcPaused : Bool
  deriving DecidableEq, Repr

/-- The last values of the identity sequences. -/
structure Sequences where
  inode : Nat
  aclSet : Nat
  manifest : Nat
  chunk : Nat
  snapshot : Nat
  deriving DecidableEq, Repr

/-- The row of `commit_batch_contexts` of a transaction that publishes many files
under one commit: `recorded` is that commit once it exists. -/
structure CommitBatch where
  recorded : Option Nat
  deriving DecidableEq, Repr

structure Db (H : Type) where
  workspace : Workspace
  sequences : Sequences
  aclSets : Table Nat (List AclEntry)
  tree : Tree
  history : History
  store : Store H
  mounts : Mounts
  batch : Option CommitBatch

/-- The role of the session: a superuser passes every check, and a member of a
role has what is granted to it. -/
structure User where
  oid : Nat
  name : String
  superuser : Bool
  memberOf : List String
  deriving DecidableEq, Repr

/-- What a call takes from its session: the user, the clock in milliseconds, and
the random tokens it draws. -/
structure Env where
  user : User
  now : Nat
  handleToken : Nat
  requestToken : String
  deriving DecidableEq, Repr

/-- A statement, or the statements of a call. -/
abbrev Sql (H : Type) (α : Type) := Tx (Db H) PgError α

/-- A read that may raise an error. -/
def checked {H α : Type} (look : Db H -> Except PgError α) : Sql H α := fun db =>
  (look db).map fun value => (value, db)

/-- The rows that the usage counters count. -/
def Inode.counted (inode : Inode) : Bool := inode.kind ≠ .directory && inode.live

end VexDB.PgFs
