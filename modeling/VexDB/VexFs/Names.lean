import VexDB.VexFs.History

/-!
# Paths and names

Parsing of paths, the walk from the root along the components of a path, and the
statements that create inodes and directory entries.
-/

namespace VexDB.VexFs

open Storage Tx

variable {H : Type}

/-- The byte of a slash. -/
def slash : UInt8 := 47

/-- The byte of a dot. -/
def dot : UInt8 := 46

/-- A component that `PathParts` lets through. -/
def checkPart (part : Name) : Except SqlError Unit :=
  if part = [dot] ∨ part = [dot, dot] then
    .error ⟨"path must not contain . or ..", .mismatch⟩
  else if part.length > 255 then
    .error ⟨"path component is longer than 255 bytes", .mismatch⟩
  else .ok ()

/-- `PathParts`: the components of an absolute path. -/
def pathParts (path : Bytes) : Except SqlError (List Name) :=
  if path.head? ≠ some slash then .error ⟨"path must be absolute", .mismatch⟩
  else if 0 ∈ path then .error ⟨"path contains NUL", .mismatch⟩
  else do
    let parts := ((path.drop 1).splitOn slash).filter fun part => part ≠ []
    parts.forM checkPart
    return parts

/-- An inode together with its id. -/
structure Node where
  id : Nat
  row : Inode
  deriving DecidableEq, Repr

namespace Db

/-- The node of an inode that is live. -/
def liveNode (db : Db H) (inode : Nat) : Option Node :=
  match db.inodes.get inode with
  | some row => if row.live then some ⟨inode, row⟩ else none
  | none => none

/-- `FindChild`. -/
def findChild (db : Db H) (parent : Nat) (name : Name) : Option Node :=
  (db.dentries.get (parent, name)).bind db.liveNode

/-- Follow the components of a path from a node. -/
def walk (db : Db H) : Node -> List Name -> Option Node
  | node, [] => some node
  | node, part :: parts =>
    if node.row.kind = .directory then
      (db.findChild node.id part).bind fun child => db.walk child parts
    else none

/-- `TryResolve`, except that a workspace without its root resolves no path. -/
def tryResolve (db : Db H) (parts : List Name) : Option Node :=
  (db.liveNode db.workspace.rootInode).bind fun root => db.walk root parts

/-- `DirectoryIsEmpty`. -/
def directoryIsEmpty (db : Db H) (inode : Nat) : Bool :=
  !db.dentries.entries.any fun entry => entry.1.1 = inode && (db.liveNode entry.2).isSome

end Db

/-- `RootNode`. -/
def rootNode : Sql H Node :=
  require (fun db => db.liveNode db.workspace.rootInode)
    ⟨"workspace root is missing", .corrupt⟩

/-- `Resolve`. -/
def resolve (parts : List Name) : Sql H Node := do
  let _ <- rootNode
  require (fun db => db.tryResolve parts) ⟨"path not found", .notFound⟩

/-- `ResolveParent`. -/
def resolveParent (parts : List Name) : Sql H (Node × Name) :=
  match parts.getLast? with
  | none => fail ⟨"root path has no parent", .mismatch⟩
  | some name => do
    let parent <- resolve parts.dropLast
    rejectIf (parent.row.kind ≠ .directory) ⟨"parent is not a directory", .mismatch⟩
    return (parent, name)

/-- `CheckQuotaForNewInode`. -/
def checkQuotaForNewInode (kind : Kind) : Sql H Unit := do
  let workspace <- reading Db.workspace
  rejectIf (kind ≠ .directory ∧
      workspace.quotaMaxFiles.any fun limit => decide (workspace.liveFiles ≥ limit))
    ⟨"workspace file quota exceeded", .full⟩

/-- `CheckQuotaForContentSize`. -/
def checkQuotaForContentSize (inode newSize : Nat) : Sql H Unit := do
  let db <- reading id
  let counted := (db.inodes.get inode).filter Inode.counted
  let oldSize := (counted.map Inode.size).getD 0
  rejectIf (db.workspace.quotaMaxFileBytes.any fun limit =>
      decide (newSize > limit) && (counted.isNone || decide (newSize ≥ oldSize)))
    ⟨"maximum file size quota exceeded", .full⟩
  rejectIf (counted.isSome && decide (newSize ≥ oldSize) &&
      db.workspace.quotaMaxBytes.any fun limit =>
        decide (newSize > limit) ||
          decide (db.workspace.liveBytes - oldSize > (limit : Int) - newSize))
    ⟨"workspace byte quota exceeded", .full⟩

/-- The row `CreateInode` inserts. -/
def newInode (env : Env) (kind : Kind) (mode : Nat) : Inode where
  kind := kind
  mode := mode
  ownerPrincipal := "local"
  uid := env.uid
  gid := env.gid
  size := 0
  currentVersion := if kind = .directory then 1 else 0
  createdAt := env.seconds
  accessedAt := env.seconds
  updatedAt := env.seconds
  changedAt := env.seconds
  deletedAt := none

/-- `CreateInode`. -/
def createInode (env : Env) (kind : Kind) (mode : Nat) : Sql H Nat := do
  checkQuotaForNewInode kind
  let inode <- reading fun db => db.inodes.fresh db.elsewhere.inode
  Tx.write fun db => db.insertInode inode (newInode env kind mode)
  return inode

/-- `TouchDirectory`. -/
def Db.touchDirectory (db : Db H) (env : Env) (inode : Nat) : Db H :=
  db.updateInodeIf inode (fun row => row.kind = .directory && row.live) fun row =>
    { row with
      currentVersion := row.currentVersion + 1
      updatedAt := env.now
      changedAt := env.now }

/-- Insert a directory entry unless its key is taken. -/
def insertDentry (key : DentryKey) (inode : Nat) : Sql H Unit :=
  attempt fun db =>
    if (db.dentries.get key).isSome then
      .error ⟨"UNIQUE constraint failed: _vexfs_dentries", .constraint⟩
    else .ok (db.insertDentry key inode)

/-- The access control entries a new entry of a directory passes on to its inode. -/
def Db.inheritedAcl (db : Db H) (parent inode : Nat) : List (AclKey × AclRow) :=
  (db.aclEntries.entries.filter fun entry =>
    entry.1.inode = parent && entry.2.inheritFlags ≠ 0).map fun entry =>
      ({ entry.1 with inode := inode }, entry.2)

/-- Insert an access control entry unless its key is taken. -/
def Db.insertAclOrIgnore (db : Db H) (key : AclKey) (row : AclRow) : Db H :=
  if (db.aclEntries.get key).isSome then db else db.setAcl key row

/-- Copy the inheritable access control entries of a directory to an inode. -/
def Db.inheritAcl (db : Db H) (parent inode : Nat) : Db H :=
  (db.inheritedAcl parent inode).foldl (fun db entry => db.insertAclOrIgnore entry.1 entry.2) db

/-- `AddDentry` inside a savepoint. -/
def addDentry (env : Env) (parent : Nat) (name : Name) (inode : Nat) : Sql H Unit := do
  insertDentry (parent, name) inode
  Tx.write fun db => db.inheritAcl parent inode
  Tx.write fun db => db.touchDirectory env parent

end VexDB.VexFs
