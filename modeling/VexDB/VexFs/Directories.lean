import VexDB.VexFs.Content

/-!
# The calls that change the namespace

Creating, linking and writing by path run inside one savepoint and are single
transactions.  `vexfs_mkdir`, `vexfs_rename` and `vexfs_remove` open no
savepoint: each of their statements, the reads of a path walk included, is a
transaction of its own.
-/

namespace VexDB.VexFs

open Storage Tx
open Program (exec)

variable {H : Type}

/-! ## Path walks statement by statement -/

/-- `FindChild` as a statement. -/
def findChildStep (parent : Nat) (name : Name) : Call H (Option Node) :=
  exec (reading fun db => db.findChild parent name)

/-- Follow the components of a path, one statement for each. -/
def walkSteps : Node -> List Name -> Call H (Option Node)
  | node, [] => return some node
  | node, part :: parts =>
    if node.row.kind = .directory then do
      match <- findChildStep node.id part with
      | some child => walkSteps child parts
      | none => return none
    else return none

/-- `TryResolve` statement by statement. -/
def tryResolveSteps (parts : List Name) : Call H (Option Node) := do
  let root <- exec rootNode
  walkSteps root parts

/-- `Resolve` statement by statement. -/
def resolveSteps (parts : List Name) : Call H Node := do
  match <- tryResolveSteps parts with
  | some node => return node
  | none => exec (fail ⟨"path not found", .notFound⟩)

/-- `ResolveParent` statement by statement. -/
def resolveParentSteps (parts : List Name) : Call H (Node × Name) :=
  match parts.getLast? with
  | none => exec (fail ⟨"root path has no parent", .mismatch⟩)
  | some name => do
    let parent <- resolveSteps parts.dropLast
    exec (rejectIf (parent.row.kind ≠ .directory) ⟨"parent is not a directory", .mismatch⟩)
    return (parent, name)

/-! ## Tombstones -/

namespace Db

/-- The inodes that the entries of some directories point to. -/
def childInodes (db : Db H) (parents : List Nat) : List Nat :=
  db.dentries.entries.filterMap fun entry =>
    if entry.1.1 ∈ parents then some entry.2 else none

/-- The levels of the tree below some inodes, to a given depth. -/
def treeLevels (db : Db H) : Nat -> List Nat -> List Nat
  | 0, _ => []
  | depth + 1, level => level ++ db.treeLevels depth (db.childInodes level)

/-- The inodes at and below an inode.  A chain of entries without a cycle is no
longer than the number of entries. -/
def subtree (db : Db H) (inode : Nat) : List Nat :=
  db.treeLevels (db.dentries.entries.length + 1) [inode]

/-- `TombstoneTree`. -/
def tombstoneTree (db : Db H) (env : Env) (inode : Nat) : Db H :=
  db.updateInodes fun other row =>
    if other ∈ db.subtree inode then some { row with deletedAt := some env.seconds } else none

/-- `TombstoneIfUnreferenced`. -/
def tombstoneIfUnreferenced (db : Db H) (env : Env) (inode : Nat) : Db H :=
  db.updateInodeIf inode
    (fun row => row.kind ≠ .directory && !db.dentries.entries.any fun entry => entry.2 = inode)
    fun row => { row with deletedAt := some env.seconds }

/-- Take the name of a node away and tombstone what no name leads to any more. -/
def tombstone (db : Db H) (env : Env) (node : Node) : Db H :=
  if node.row.kind = .directory then db.tombstoneTree env node.id
  else db.tombstoneIfUnreferenced env node.id

end Db

/-! ## Directories -/

/-- The loop of `vexfs_mkdir`: the directory reached and whether anything was created. -/
def mkdirSteps (env : Env) : Node -> Bool -> List Name -> Call H (Node × Bool)
  | current, changed, [] => return (current, changed)
  | current, changed, part :: parts => do
      match <- findChildStep current.id part with
      | some child =>
        exec (rejectIf (child.row.kind ≠ .directory)
          ⟨"path component is not a directory", .mismatch⟩)
        mkdirSteps env child changed parts
      | none =>
        let inode <- exec (createInode env .directory 0o755)
        exec (insertDentry (current.id, part) inode)
        exec (write fun db => db.inheritAcl current.id inode)
        exec (write fun db => db.touchDirectory env current.id)
        mkdirSteps env ⟨inode, newInode env .directory 0o755⟩ true parts

/-- `vexfs_mkdir`. -/
def mkdir (env : Env) (parts : List Name) : Call H Nat := do
  let root <- exec rootNode
  let (current, changed) <- mkdirSteps env root false parts
  if changed then
    let _ <- exec (createCommit env)
    return current.id
  else return current.id

/-- The refusal of a rename that needs no look at the tables. -/
def renameRefusal (source destination : List Name) : Option SqlError :=
  if source = [] ∨ destination = [] then some ⟨"root cannot be moved", .mismatch⟩
  else if destination.length > source.length ∧ source.isPrefixOf destination then
    some ⟨"directory cannot be moved into itself", .mismatch⟩
  else none

/-- Clear the name a rename goes to. -/
def replaceExisting (env : Env) (source : Node) (key : DentryKey) (replace : Bool)
    (existing : Node) : Call H Unit := do
  exec (rejectIf (!replace) ⟨"destination already exists", .constraint⟩)
  exec (rejectIf (source.row.kind ≠ existing.row.kind)
    ⟨"source and destination types differ", .mismatch⟩)
  if existing.row.kind = .directory then
    let empty <- exec (reading fun db => db.directoryIsEmpty existing.id)
    exec (rejectIf (!empty) ⟨"destination directory is not empty", .notEmpty⟩)
  exec (write fun db => db.deleteDentry key)
  exec (write fun db => db.tombstone env existing)

/-- Move an entry unless the new key is taken by another one. -/
def moveDentry (source target : DentryKey) : Sql H Unit :=
  attempt fun db =>
    if (db.dentries.get source).isSome ∧ source ≠ target ∧ (db.dentries.get target).isSome then
      .error ⟨"UNIQUE constraint failed: _vexfs_dentries", .constraint⟩
    else .ok (db.moveDentry source target)

/-- `vexfs_rename`, and `vexfs_move` when `replace` is false. -/
def rename (env : Env) (source destination : List Name) (replace : Bool) : Call H Unit :=
  if source = destination ∧ source ≠ [] then return ()
  else
    match renameRefusal source destination with
    | some error => exec (fail error)
    | none => do
      let (sourceParent, sourceName) <- resolveParentSteps source
      match <- findChildStep sourceParent.id sourceName with
      | none => exec (fail ⟨"source path not found", .notFound⟩)
      | some node =>
        let (parent, name) <- resolveParentSteps destination
        match <- findChildStep parent.id name with
        | none => pure ()
        | some existing => replaceExisting env node (parent.id, name) replace existing
        exec (moveDentry (sourceParent.id, sourceName) (parent.id, name))
        exec (write fun db => db.touchDirectory env sourceParent.id)
        if parent.id ≠ sourceParent.id then
          exec (write fun db => db.touchDirectory env parent.id)
        let _ <- exec (createCommit env)
        return ()

/-- `vexfs_remove`. -/
def remove (env : Env) (parts : List Name) (recursive : Bool) : Call H Unit :=
  if parts = [] then exec (fail ⟨"workspace root cannot be removed", .mismatch⟩)
  else do
    let (parent, name) <- resolveParentSteps parts
    match <- findChildStep parent.id name with
    | none => exec (fail ⟨"path not found", .notFound⟩)
    | some node =>
      if node.row.kind = .directory ∧ !recursive then
        let empty <- exec (reading fun db => db.directoryIsEmpty node.id)
        exec (rejectIf (!empty) ⟨"directory is not empty", .notEmpty⟩)
      exec (write fun db => db.deleteDentry (parent.id, name))
      exec (write fun db => db.tombstone env node)
      exec (write fun db => db.touchDirectory env parent.id)
      let _ <- exec (createCommit env)
      return ()

/-! ## Files, links and symbolic links -/

variable [DecidableEq H] [Digest H]

/-- The parent and the name of a path at which nothing is yet. -/
def freeName (parts : List Name) : Sql H (Node × Name) := do
  let (parent, name) <- resolveParent parts
  let existing <- reading fun db => db.findChild parent.id name
  rejectIf existing.isSome ⟨"destination already exists", .constraint⟩
  return (parent, name)

/-- `vexfs_create`. -/
def create (env : Env) (parts : List Name) (kind : Kind) (mode : Nat) : Sql H Nat := do
  rejectIf (mode > 0o777)
    ⟨"mode must contain only rwx permission bits (0..0777)", .range⟩
  rejectIf (parts = []) ⟨"workspace root already exists", .constraint⟩
  rejectIf (kind ≠ .file ∧ kind ≠ .directory)
    ⟨"special files (fifo, device and socket) are not supported", .mismatch⟩
  let (parent, name) <- freeName parts
  let inode <- createInode env kind mode
  addDentry env parent.id name inode
  let _ <- if kind = .file then storeVersion env inode 0 [] else createCommit env
  return inode

/-- `kMaxSymlinkBytes`. -/
def maxSymlinkBytes : Nat := 4096

/-- `vexfs_symlink`. -/
def symlink (env : Env) (parts : List Name) (target : Bytes) : Sql H Nat := do
  rejectIf (parts = []) ⟨"workspace root already exists", .constraint⟩
  rejectIf (target = []) ⟨"symlink target must not be empty", .mismatch⟩
  rejectIf (target.length > maxSymlinkBytes)
    ⟨"symlink target is longer than 4096 bytes", .tooBig⟩
  rejectIf (0 ∈ target) ⟨"symlink target contains NUL", .mismatch⟩
  let (parent, name) <- freeName parts
  let inode <- createInode env .symlink 0o777
  addDentry env parent.id name inode
  let _ <- storeVersion env inode 0 target
  return inode

/-- `vexfs_link`. -/
def hardlink (env : Env) (source destination : List Name) : Sql H Nat := do
  rejectIf (source = [] ∨ destination = [])
    ⟨"hard links cannot target the workspace root", .mismatch⟩
  let node <- resolve source
  rejectIf (node.row.kind ≠ .file)
    ⟨"hard links are supported only for regular files", .mismatch⟩
  let (parent, name) <- freeName destination
  addDentry env parent.id name node.id
  let _ <- createCommit env
  return node.id

/-- The file at a path, created if the name is free: its inode and version. -/
def writeTarget (env : Env) (parent : Node) (name : Name) : Sql H (Nat × Nat) := do
  match <- reading fun db => db.findChild parent.id name with
  | some node =>
    rejectIf (node.row.kind ≠ .file) ⟨"path is not a file", .mismatch⟩
    return (node.id, node.row.currentVersion)
  | none =>
    let inode <- createInode env .file 0o644
    addDentry env parent.id name inode
    return (inode, 0)

/-- `WritePath`. -/
def writePath (env : Env) (parts : List Name) (content : Bytes) : Sql H Nat := do
  let (parent, name) <- resolveParent parts
  let (inode, version) <- writeTarget env parent name
  storeVersion env inode version content

/-- `vexfs_write`. -/
def write (env : Env) (parts : List Name) (content : Bytes) : Sql H Nat := do
  rejectIf (content.length > maxStagedBytes)
    ⟨"file is larger than the Phase 0 limit (128 MiB)", .tooBig⟩
  writePath env parts content

/-- `NodeById` for an inode that may be deleted. -/
def nodeById (inode : Nat) : Sql H Node :=
  require (fun db => (db.inodes.get inode).map fun row => ⟨inode, row⟩)
    ⟨"inode not found", .notFound⟩

/-- `vexfs_append`. -/
def append (env : Env) (inode : Nat) (suffix : Bytes) : Sql H Nat := do
  let node <- nodeById inode
  rejectIf (node.row.kind ≠ .file) ⟨"inode is not a file", .mismatch⟩
  rejectIf (node.row.size > maxStagedBytes ∨
      suffix.length > maxStagedBytes - node.row.size)
    ⟨"file is larger than the Phase 0 limit (128 MiB)", .tooBig⟩
  let content <- checked fun db => db.readNode node
  storeVersion env inode node.row.currentVersion (content ++ suffix)

/-- `vexfs_restore_version`. -/
def restoreVersion (env : Env) (parts : List Name) (target expected : Nat) : Sql H Nat := do
  let node <- resolve parts
  rejectIf (target = 0) ⟨"version must be a positive integer", .range⟩
  rejectIf (expected = 0) ⟨"expected version must be a positive integer", .range⟩
  rejectIf (node.row.currentVersion ≠ expected)
    ⟨"version conflict: expected " ++ toString expected ++ ", current " ++
      toString node.row.currentVersion, .constraint⟩
  rejectIf (target = node.row.currentVersion)
    ⟨"target version is already current", .mismatch⟩
  storeVersionFromVersion env node.id node.row.currentVersion target

end VexDB.VexFs
