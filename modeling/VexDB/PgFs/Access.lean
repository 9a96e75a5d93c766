import Mathlib.Data.List.Sort
import VexDB.PgFs.Tree

/-!
# Access control, paths and commits

Who may do what: access control lists are immutable sets that inodes refer to, a
role passes a check on an inode if it owns it, is a superuser, or is allowed and
not denied by the entries of the inode's set.  A path is resolved entry by entry,
each step checking that the inode it leaves may be executed; the kind of that
inode is not looked at.
-/

namespace VexDB.PgFs

open Storage Tx
open VexFs (Bytes Name Kind DentryKey XattrKey Effect slash dot)

variable {H : Type}

/-! ## Permissions -/

/-- The permissions the functions ask for. -/
inductive Permission
  | read | write | execute | metadata | admin
  deriving DecidableEq, Repr

/-- The word of a permission. -/
def Permission.word : Permission -> String
  | .read => "read"
  | .write => "write"
  | .execute => "execute"
  | .metadata => "metadata"
  | .admin => "admin"

/-- A character that the class `\s` matches. -/
def isSpace (char : Char) : Bool :=
  char = ' ' || char = '\t' || char = '\n' || char = '\r' || char.toNat = 11 || char.toNat = 12

/-- Drop the blanks at the end. -/
def trimEnd (word : List Char) : List Char := (word.reverse.dropWhile isSpace).reverse

/-- The words between the commas of a list; blanks around a comma belong to it. -/
def commaWords (text : List Char) : List (List Char) :=
  let pieces := text.splitOn ','
  pieces.mapIdx fun index piece =>
    let left := if index = 0 then piece else piece.dropWhile isSpace
    if index + 1 = pieces.length then left else trimEnd left

/-- `permission_contains`. -/
def permissionContains (permissions : String) (required : Permission) : Bool :=
  (commaWords (permissions.toList.map Char.toLower)).any fun word =>
    word = required.word.toList || word = Permission.admin.word.toList

/-- An entry is about the user. -/
def AclEntry.concerns (entry : AclEntry) (user : User) : Bool :=
  entry.principal = user.name || entry.principal = "public" || entry.principal = "*" ||
    user.memberOf.contains entry.principal

namespace Db

/-- The rows of the view `acl_entries` for an inode. -/
def aclEntries (db : Db H) (inode : Nat) : List AclEntry :=
  (((db.tree.inodes.get inode).bind Inode.aclSet).bind db.aclSets.get).getD []

/-- An entry with an effect gives the user a permission on an inode. -/
def aclHas (db : Db H) (user : User) (inode : Nat) (effect : Effect) (permission : Permission) :
    Bool :=
  (db.aclEntries inode).any fun entry =>
    entry.concerns user && entry.effect = effect && permissionContains entry.permissions permission

/-- `has_acl_permission`. -/
def hasAclPermission (db : Db H) (user : User) (inode : Nat) (permission : Permission) : Bool :=
  match db.tree.liveInode inode with
  | none => false
  | some row =>
    user.superuser || row.ownerOid = user.oid ||
      (!db.aclHas user inode .deny permission && db.aclHas user inode .allow permission)

/-- The test of `require_workspace`. -/
def mayUse (db : Db H) (user : User) (permission : Permission) : Bool :=
  db.workspace.ownerOid = user.oid || user.superuser ||
    db.hasAclPermission user db.workspace.rootInode permission

end Db

/-- `require_inode_permission`. -/
def requireInodePermission (env : Env) (inode : Nat) (permission : Permission) : Sql H Unit := do
  let db <- reading id
  rejectIf (!db.hasAclPermission env.user inode permission)
    ⟨"VEXFS_PERMISSION_DENIED: permission denied for inode", "42501"⟩

/-- `require_workspace`. -/
def requireWorkspace (env : Env) (permission : Permission) : Sql H Unit := do
  let db <- reading id
  rejectIf (!db.mayUse env.user permission)
    ⟨"VEXFS_PERMISSION_DENIED: workspace belongs to another role", "42501"⟩

/-! ## Access control sets -/

/-- The order of entries in a canonical list. -/
def AclEntry.before (left right : AclEntry) : Prop :=
  left.principal < right.principal ∨
    (left.principal = right.principal ∧ (left.effect = .allow ∨ right.effect = .deny))

instance (left right : AclEntry) : Decidable (left.before right) :=
  inferInstanceAs (Decidable (_ ∨ _))

/-- The limits on the fields of an entry. -/
def AclEntry.valid (entry : AclEntry) : Bool :=
  entry.principal ≠ "" && decide (entry.principal.utf8ByteSize <= 255) &&
    entry.permissions ≠ "" && decide (entry.permissions.utf8ByteSize <= 1024) &&
    decide (entry.inherit <= 255)

/-- `canonical_acl`. -/
def canonicalAcl (acl : List AclEntry) : Except PgError (List AclEntry) :=
  if acl.length > 1024 then
    .error ⟨"VEXFS_INVALID_ACL: ACL must be an array with at most 1024 entries", "22023"⟩
  else if !acl.all AclEntry.valid then
    .error ⟨"VEXFS_INVALID_ACL: invalid ACL entry", "22023"⟩
  else if ¬ (acl.map fun entry => (entry.principal, entry.effect)).Nodup then
    .error ⟨"VEXFS_INVALID_ACL: principal/effect entries must be unique", "22023"⟩
  else .ok (acl.insertionSort AclEntry.before)

/-- The next value of a sequence. -/
def nextval (value : Sequences -> Nat) (advance : Sequences -> Nat -> Sequences) : Sql H Nat := do
  let next <- reading fun db => value db.sequences + 1
  Tx.write fun db => { db with sequences := advance db.sequences next }
  return next

/-- Insert a new access control set. -/
def insertAclSet (acl : List AclEntry) : Sql H Nat := do
  let id <- nextval Sequences.aclSet fun sequences next => { sequences with aclSet := next }
  attempt fun db =>
    if (db.aclSets.get id).isSome then
      .error ⟨"duplicate key value violates unique constraint acl_sets_pkey", "23505"⟩
    else .ok { db with aclSets := db.aclSets.set id acl }
  return id

/-- `get_or_create_acl_set`. -/
def getOrCreateAclSet (acl : List AclEntry) : Sql H (Option Nat) := do
  let canonical <- checked fun _ => canonicalAcl acl
  if canonical = [] then return none
  else
    match <- reading fun db => db.aclSets.entries.find? fun entry => entry.2 = canonical with
    | some found => return some found.1
    | none =>
      let id <- insertAclSet canonical
      return some id

/-- `inherited_acl_set_id`. -/
def inheritedAclSet (parent : Nat) : Sql H (Option Nat) := do
  let row <- require (fun db => db.tree.inodes.get parent) ⟨"VEXFS_INODE_NOT_FOUND", "P0002"⟩
  match row.aclSet with
  | none => return none
  | some set =>
    let entries <- reading fun db => (db.aclSets.get set).getD []
    let inherited := entries.filter fun entry => entry.inherit ≠ 0
    if inherited = [] then return none
    else if inherited.length = entries.length then return some set
    else getOrCreateAclSet inherited

/-- Change the rows of the tree. -/
def onTree (change : Tree -> Tree) : Sql H Unit :=
  Tx.write fun db => { db with tree := change db.tree }

/-- `inherit_acl`. -/
def inheritAcl (parent child : Nat) : Sql H Unit := do
  let set <- inheritedAclSet parent
  onTree fun tree => tree.updateInode child fun row => { row with aclSet := set }

/-! ## Paths -/

/-- A component that `path_parts` lets through. -/
def checkPart (part : Name) : Except PgError Unit :=
  if part = [] ∨ part = [dot] ∨ part = [dot, dot] then
    .error ⟨"VEXFS_INVALID_PATH: invalid path component", "22023"⟩
  else if part.length > 255 then
    .error ⟨"VEXFS_INVALID_PATH: path component is too long", "22023"⟩
  else .ok ()

/-- `path_parts`. -/
def pathParts (path : Bytes) : Except PgError (List Name) :=
  if path.head? ≠ some slash then
    .error ⟨"VEXFS_INVALID_PATH: path must be absolute", "22023"⟩
  else if path = [slash] then .ok []
  else do
    let parts := (path.drop 1).splitOn slash
    parts.forM checkPart
    return parts

namespace Db

/-- Follow components from an inode, checking that each inode left may be executed. -/
def resolveFrom (db : Db H) (user : User) : Nat -> List Name -> Except PgError Nat
  | inode, [] => .ok inode
  | inode, part :: parts =>
    if !db.hasAclPermission user inode .execute then
      .error ⟨"VEXFS_PERMISSION_DENIED: permission denied for inode", "42501"⟩
    else
      match db.tree.dentries.get (inode, part) with
      | none => .error ⟨"VEXFS_PATH_NOT_FOUND", "P0002"⟩
      | some next => db.resolveFrom user next parts

/-- `resolve_path`. -/
def resolvePath (db : Db H) (user : User) (path : Bytes) : Except PgError Nat := do
  let parts <- pathParts path
  db.resolveFrom user db.workspace.rootInode parts

/-- `resolve_parent`: the inode of the parent and the last component. -/
def resolveParent (db : Db H) (user : User) (path : Bytes) : Except PgError DentryKey := do
  let parts <- pathParts path
  match parts.getLast? with
  | none => .error ⟨"VEXFS_INVALID_PATH: workspace root has no parent", "22023"⟩
  | some name =>
    let parent <- db.resolveFrom user db.workspace.rootInode parts.dropLast
    return (parent, name)

/-- The text of a path with one more component. -/
def extendPath (path : Bytes) (name : Name) : Bytes :=
  if path = [slash] then slash :: name else path ++ slash :: name

/-- The rows of the recursive query of `path_for_inode` below a row of it. -/
def pathsFrom (db : Db H) : Nat -> Nat -> Bytes -> List Nat -> List (Nat × Bytes)
  | 0, inode, path, _ => [(inode, path)]
  | rounds + 1, inode, path, visited =>
    (inode, path) :: (db.tree.dentries.entries.filter fun entry =>
      entry.1.1 = inode && !visited.contains entry.2 &&
        decide (path.length + entry.1.2.length + 1 <= 4096)).flatMap fun entry =>
          db.pathsFrom rounds entry.2 (extendPath path entry.1.2) (visited ++ [entry.2])

/-- `path_for_inode`: the first of the paths of an inode. -/
def pathForInode (db : Db H) (inode : Nat) : Option Bytes :=
  (((db.pathsFrom db.tree.dentries.entries.length db.workspace.rootInode [slash]
    [db.workspace.rootInode]).filter fun row => row.1 = inode).map Prod.snd).insertionSort
      (fun left right => left <= right) |>.head?

end Db

/-! ## Commits and quotas -/

/-- `record_commit` and `record_commit_header`: the number of the commit.  The rows
that describe the commit are left out, but not the limit on their path. -/
def recordCommit (path : Bytes) : Sql H Nat := do
  rejectIf (path.length > 4096)
    ⟨"new row violates check constraint commits_path_check", "23514"⟩
  match <- reading fun db => db.batch.bind CommitBatch.recorded with
  | some commit => return commit
  | none =>
    Tx.write fun db =>
      let commit := db.workspace.headCommit + 1
      { db with
        workspace.headCommit := commit
        workspace.historyFloor :=
          if db.workspace.historyFloor = 0 then commit else db.workspace.historyFloor
        batch := db.batch.map fun _ => ⟨some commit⟩ }
    reading fun db => db.workspace.headCommit

/-- `begin_commit_batch`. -/
def beginCommitBatch : Sql H Unit := Tx.write fun db => { db with batch := some ⟨none⟩ }

/-- `end_commit_batch`. -/
def endCommitBatch : Sql H Unit := Tx.write fun db => { db with batch := none }

/-- The row of the inode that `enforce_quota` is about. -/
def quotaRow : Option Nat -> Sql H (Option Inode)
  | none => return none
  | some inode => do
    let row <- require (fun db => (db.tree.inodes.get inode).filter fun row =>
      row.kind ≠ .directory) ⟨"VEXFS_CORRUPT: quota target inode is invalid", "XX001"⟩
    return some row

/-- `enforce_quota`. -/
def enforceQuota (inode : Option Nat) (newSize : Nat) : Sql H Unit := do
  let db <- reading id
  let row <- quotaRow inode
  let oldSize := (row.map Inode.size).getD 0
  let oldLive := (row.map Inode.live).getD false
  let projected : Int := db.tree.liveBytes - (if oldLive then (oldSize : Int) else 0) + newSize
  rejectIf (db.workspace.quotaMaxFileBytes.any fun limit =>
      decide (newSize > limit) && (!oldLive || decide (newSize ≥ oldSize)))
    ⟨"VEXFS_QUOTA_FILE_SIZE: maximum file size quota exceeded", "53100"⟩
  rejectIf (db.workspace.quotaMaxBytes.any fun limit =>
      decide (projected > limit) && decide (projected ≥ db.tree.liveBytes))
    ⟨"VEXFS_QUOTA_BYTES: workspace byte quota exceeded", "53100"⟩
  rejectIf (!oldLive && db.workspace.quotaMaxFiles.any fun limit =>
      decide (db.tree.liveFiles + 1 > limit))
    ⟨"VEXFS_QUOTA_FILES: workspace file quota exceeded", "53100"⟩

end VexDB.PgFs
