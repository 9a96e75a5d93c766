import VexDB.Storage.Table
import VexDB.Storage.Program

/-!
# The VexFS tables

One database with one workspace: the rows of the tables whose names start with
`_vexfs_`, under their primary keys.  Rows of other workspaces matter only for
the row ids that `INTEGER PRIMARY KEY` hands out, so of them the model keeps the
largest ids in use.

The digests are a parameter.  Content is stored in chunks, and a chunk and a
manifest carry the digest that the source computes with SHA-256.
-/

namespace VexDB.VexFs

open Storage

/-- A byte string. -/
abbrev Bytes := List UInt8

/-- One component of a path. -/
abbrev Name := Bytes

/-- The digests of chunks and of manifests. -/
class Digest (H : Type) where
  /-- The digest of the bytes of a chunk. -/
  sha256 : Bytes -> H
  /-- The digest of a manifest: file size, chunk size, and size and digest of each chunk. -/
  manifestChecksum : Nat -> Nat -> List (Nat × H) -> H

/-- The result codes that the source attaches to its errors. -/
inductive ErrorCode
  | error | mismatch | constraint | notEmpty | notFound | busy | full | range | tooBig
  | corrupt | readOnly
  deriving DecidableEq, Repr

/-- An error raised by a SQL function. -/
structure SqlError where
  message : String
  code : ErrorCode
  deriving DecidableEq, Repr

/-- What an inode is. -/
inductive Kind
  | file | directory | symlink
  deriving DecidableEq, Repr

/-- A row of `_vexfs_inodes`, and of `_vexfs_inode_states` without its key. -/
structure Inode where
  kind : Kind
  mode : Nat
  ownerPrincipal : String
  uid : Int
  gid : Int
  size : Nat
  currentVersion : Nat
  createdAt : Nat
  accessedAt : Nat
  updatedAt : Nat
  changedAt : Nat
  deletedAt : Option Nat
  deriving DecidableEq, Repr

/-- The directory entry under a name of a directory. -/
abbrev DentryKey := Nat × Name

/-- A row of `_vexfs_dentry_states` without its key. -/
structure DentryState where
  inode : Nat
  deleted : Bool
  deriving DecidableEq, Repr

abbrev XattrKey := Nat × Name

/-- An attribute as a commit left it. -/
structure XattrState where
  value : Bytes
  deleted : Bool
  deriving DecidableEq, Repr

inductive Effect
  | allow | deny
  deriving DecidableEq, Repr

/-- What an access control entry is about. -/
structure AclKey where
  inode : Nat
  principal : String
  effect : Effect
  deriving DecidableEq, Repr

/-- What an access control entry says. -/
structure AclRow where
  permissions : String
  inheritFlags : Nat
  deriving DecidableEq, Repr

structure AclState where
  row : AclRow
  deleted : Bool
  deriving DecidableEq, Repr

/-- A row of `_vexfs_commits`. -/
structure Commit where
  parent : Option Nat
  createdAt : Nat
  deriving DecidableEq, Repr

/-- A row of `_vexfs_file_versions` under the inode and the version number.  A
canonical version has a manifest; an alias names the canonical version whose
content it has. -/
structure Version (H : Type) where
  id : Nat
  commit : Nat
  manifest : Option Nat
  size : Nat
  checksum : H
  source : Option Nat
  createdAt : Nat

/-- The size of a stored content. -/
structure Manifest (H : Type) where
  fileSize : Nat
  chunkCount : Nat
  checksum : H

/-- A stored chunk of a file. -/
structure Chunk (H : Type) where
  inode : Nat
  content : Bytes
  size : Nat
  checksum : H

inductive HandleState
  | opened | retained | closed
  deriving DecidableEq, Repr

/-- An open file of a session. -/
structure Handle where
  inode : Nat
  writable : Bool
  expectedVersion : Nat
  dirtyGeneration : Nat
  publishedGeneration : Nat
  state : HandleState
  ownerSession : Option String
  deriving DecidableEq, Repr

/-- Content that is written and not published. -/
structure Staging where
  generation : Nat
  baseManifest : Option Nat
  baseSize : Nat
  baseVisibleSize : Nat
  logicalSize : Nat
  capacity : Nat
  deriving DecidableEq, Repr

inductive SnapshotType
  | manual | agent | safety
  deriving DecidableEq, Repr

/-- A named commit. -/
structure Snapshot where
  id : Nat
  type : SnapshotType
  commit : Nat
  createdAt : Nat
  deriving DecidableEq, Repr

/-- The session that has the mount. -/
structure MountSession where
  sessionId : String
  leaseUntil : Nat
  deriving DecidableEq, Repr

/-- The recorded outcome of a request. -/
inductive RequestResult
  | integer (value : Nat)
  | text (value : String)
  | handle (id : Nat)
  deriving DecidableEq, Repr

/-- A row of `_vexfs_requests` under its request id. -/
structure Request where
  rowid : Nat
  operation : String
  fingerprint : List UInt64
  result : RequestResult
  deriving DecidableEq, Repr

/-- The row of the workspace. -/
structure Workspace where
  rootInode : Nat
  headCommit : Nat
  historyFloor : Option Nat
  retentionKeepVersions : Nat
  retentionKeepDays : Nat
  snapshotAgentKeep : Nat
  snapshotSafetyKeep : Nat
  snapshotKeepDays : Nat
  gcPaused : Bool
  quotaMaxBytes : Option Nat
  quotaMaxFiles : Option Nat
  quotaMaxFileBytes : Option Nat
  liveFiles : Int
  liveBytes : Int
  deriving DecidableEq, Repr

/-- The largest row ids in use by other workspaces. -/
structure RowIds where
  inode : Nat
  commit : Nat
  version : Nat
  manifest : Nat
  chunk : Nat
  snapshot : Nat
  deriving DecidableEq, Repr

/-- The database. -/
structure Db (H : Type) where
  workspace : Workspace
  inodes : Table Nat Inode
  dentries : Table DentryKey Nat
  xattrs : Table XattrKey Bytes
  aclEntries : Table AclKey AclRow
  commits : Table Nat Commit
  inodeStates : Table (Nat × Nat) Inode
  dentryStates : Table (DentryKey × Nat) DentryState
  xattrStates : Table (XattrKey × Nat) XattrState
  aclStates : Table (AclKey × Nat) AclState
  dirtyInodes : List Nat
  dirtyDentries : Table DentryKey Nat
  dirtyXattrs : List XattrKey
  dirtyAcl : List AclKey
  versions : Table (Nat × Nat) (Version H)
  manifests : Table Nat (Manifest H)
  manifestChunks : Table (Nat × Nat) Nat
  chunks : Table Nat (Chunk H)
  snapshots : Table String Snapshot
  handles : Table Nat Handle
  staging : Table Nat Staging
  stagingChunks : Table (Nat × Nat) Bytes
  mountSession : Option MountSession
  requests : Table String Request
  elsewhere : RowIds

/-- What a call takes from its process: the clock in milliseconds and the user. -/
structure Env where
  now : Nat
  uid : Int
  gid : Int
  deriving DecidableEq, Repr

/-- The clock in whole seconds, as milliseconds. -/
def Env.seconds (env : Env) : Nat := env.now / 1000 * 1000

/-- A statement, or statements inside one savepoint. -/
abbrev Sql (H : Type) (α : Type) := Tx (Db H) SqlError α

/-- A call whose statements are durable one by one. -/
abbrev Call (H : Type) (α : Type) := Program (Db H) SqlError α

namespace Inode

/-- The inode has not been tombstoned. -/
def live (inode : Inode) : Bool := inode.deletedAt.isNone

/-- The rows that the usage counters count. -/
def counted (inode : Inode) : Bool := inode.kind ≠ .directory && inode.live

/-- A file that has not been published yet. -/
def unpublished (inode : Inode) : Bool := inode.kind = .file && inode.currentVersion = 0

end Inode

end VexDB.VexFs
