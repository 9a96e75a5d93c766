import VexDB.VexFs.Handles

/-!
# Attributes of inodes

Modes, times, owners, access control entries and extended attributes.  A change
is committed at once unless the inode has unpublished content, in which case the
next publish commits it.  The calls accept deleted inodes, apart from
`vexfs_set_times`.
-/

namespace VexDB.VexFs

open Storage Tx

variable {H : Type}

/-- `HasPendingContentPublish`. -/
def Db.hasPendingContentPublish (db : Db H) (inode : Nat) : Bool :=
  db.handles.entries.any fun entry =>
    entry.2.inode = inode && entry.2.writable && entry.2.state ≠ .closed &&
      decide (entry.2.dirtyGeneration > entry.2.publishedGeneration)

/-- `CommitMetadataChange`. -/
def commitMetadataChange (env : Env) (inode : Nat) : Sql H Unit := do
  let pending <- reading fun db => db.hasPendingContentPublish inode
  if pending then return ()
  else
    let _ <- createCommit env
    return ()

/-- `RequireWorkspaceInode`. -/
def requireWorkspaceInode (inode : Nat) : Sql H Unit := do
  let _ <- require (fun db => db.inodes.get inode) ⟨"inode not found", .notFound⟩

/-- Record that an inode changed. -/
def Db.touchInode (db : Db H) (env : Env) (inode : Nat) : Db H :=
  db.updateInode inode fun row => { row with changedAt := env.now }

/-- `vexfs_set_mode`. -/
def setMode (env : Env) (inode mode : Nat) : Sql H Unit := do
  rejectIf (mode > 0o777)
    ⟨"mode must contain only rwx permission bits (0..0777)", .range⟩
  let node <- nodeById inode
  rejectIf (node.row.kind = .symlink) ⟨"symbolic link mode cannot be changed", .mismatch⟩
  if node.row.mode ≠ mode then
    Tx.write fun db => db.updateInode inode fun row =>
      { row with mode := mode, changedAt := env.now }
    commitMetadataChange env inode

/-- The times that `vexfs_set_times` sets. -/
structure Times where
  accessed : Option Nat
  updated : Option Nat
  deriving DecidableEq, Repr

/-- `vexfs_set_times`. -/
def setTimes (env : Env) (inode : Nat) (times : Times) : Sql H Unit := do
  rejectIf (times.accessed = none ∧ times.updated = none)
    ⟨"time mask must select access time, modify time, or both", .mismatch⟩
  requireWorkspaceInode inode
  let found <- reading fun db => db.liveNode inode
  rejectIf found.isNone ⟨"inode not found", .notFound⟩
  Tx.write fun db => db.updateInodeIf inode Inode.live fun row =>
    { row with
      accessedAt := times.accessed.getD row.accessedAt
      updatedAt := times.updated.getD row.updatedAt
      changedAt := env.now }
  commitMetadataChange env inode

/-- `vexfs_chown`; no value keeps the owner or the group. -/
def chown (env : Env) (inode : Nat) (uid gid : Option Nat) : Sql H Unit := do
  rejectIf (uid.any fun value => decide (value > 0xffffffff))
    ⟨"uid must be -1 or fit unsigned 32-bit values", .range⟩
  rejectIf (gid.any fun value => decide (value > 0xffffffff))
    ⟨"gid must be -1 or fit unsigned 32-bit values", .range⟩
  requireWorkspaceInode inode
  Tx.write fun db => db.updateInode inode fun row =>
    { row with
      uid := (uid.map Int.ofNat).getD row.uid
      gid := (gid.map Int.ofNat).getD row.gid
      changedAt := env.now }
  commitMetadataChange env inode

/-- `vexfs_owner_set`. -/
def ownerSet (env : Env) (parts : List Name) (owner : String) : Sql H Unit := do
  rejectIf (owner = "" ∨ owner.utf8ByteSize > 255)
    ⟨"owner principal must be 1..255 bytes", .range⟩
  let node <- resolve parts
  Tx.write fun db => db.updateInode node.id fun row =>
    { row with ownerPrincipal := owner, changedAt := env.now }
  commitMetadataChange env node.id

/-! ## Access control -/

/-- An access control entry as a caller gives it. -/
structure AclEntry where
  principal : String
  effect : Effect
  permissions : String
  inheritFlags : Nat
  deriving DecidableEq, Repr

/-- The key of an entry of an inode. -/
def AclEntry.key (entry : AclEntry) (inode : Nat) : AclKey := ⟨inode, entry.principal, entry.effect⟩

/-- The limits that `ParseAclJson` checks. -/
def checkAclEntry (entry : AclEntry) : Sql H Unit := do
  rejectIf (entry.principal = "" ∨ entry.principal.utf8ByteSize > 255)
    ⟨"acl principal must be 1..255 bytes", .range⟩
  rejectIf (entry.permissions = "" ∨ entry.permissions.utf8ByteSize > 1024)
    ⟨"acl permissions must be 1..1024 bytes", .range⟩
  rejectIf (entry.inheritFlags > 255) ⟨"acl inherit flags must be 0..255", .range⟩

/-- Insert an access control entry unless its key is taken. -/
def insertAcl (key : AclKey) (row : AclRow) : Sql H Unit :=
  attempt fun db =>
    if (db.aclEntries.get key).isSome then
      .error ⟨"UNIQUE constraint failed: _vexfs_acl_entries", .constraint⟩
    else .ok (db.setAcl key row)

/-- `vexfs_acl_set`. -/
def aclSet (env : Env) (inode : Nat) (entries : List AclEntry) : Sql H Unit := do
  requireWorkspaceInode inode
  entries.forM checkAclEntry
  rejectIf (entries.length > 1024) ⟨"acl has too many entries", .tooBig⟩
  Tx.write fun db => db.deleteAcl fun key => key.inode = inode
  entries.forM fun entry =>
    insertAcl (entry.key inode) ⟨entry.permissions, entry.inheritFlags⟩
  Tx.write fun db => db.touchInode env inode
  commitMetadataChange env inode

/-- Delete access control entries and commit if there were any. -/
def removeAcl (env : Env) (inode : Nat) (condition : AclKey -> Bool) : Sql H Unit := do
  requireWorkspaceInode inode
  let found <- reading fun db => db.aclEntries.keys.any condition
  Tx.write fun db => db.deleteAcl condition
  if found then commitMetadataChange env inode

/-- `vexfs_acl_delete`. -/
def aclDelete (env : Env) (inode : Nat) : Sql H Unit :=
  removeAcl env inode fun key => key.inode = inode

/-- `vexfs_acl_revoke`; without an effect both are revoked. -/
def aclRevoke (env : Env) (inode : Nat) (principal : String) (effect : Option Effect) :
    Sql H Unit :=
  removeAcl env inode fun key =>
    key.inode = inode && key.principal = principal &&
      (effect = none || effect = some key.effect)

/-- `vexfs_acl_grant`. -/
def aclGrant (env : Env) (inode : Nat) (principal permissions : String) (effect : Effect) :
    Sql H Unit := do
  rejectIf (principal = "" ∨ principal.utf8ByteSize > 255 ∨ permissions = "" ∨
      permissions.utf8ByteSize > 1024)
    ⟨"invalid ACL principal or permissions", .range⟩
  requireWorkspaceInode inode
  let key : AclKey := ⟨inode, principal, effect⟩
  Tx.write fun db =>
    db.setAcl key ⟨permissions, ((db.aclEntries.get key).map AclRow.inheritFlags).getD 0⟩
  commitMetadataChange env inode

/-! ## Extended attributes -/

/-- `kMaxXattrBytes`. -/
def maxXattrBytes : Nat := 65536

/-- What `vexfs_set_xattr` is to do. -/
inductive XattrPolicy
  | upsert | create | replace | remove
  deriving DecidableEq, Repr

/-- `vexfs_set_xattr`. -/
def setXattr (env : Env) (inode : Nat) (name : Name) (value : Bytes) (policy : XattrPolicy) :
    Sql H Unit := do
  rejectIf (name = [] ∨ name.length > 255) ⟨"xattr name must be 1..255 bytes", .range⟩
  requireWorkspaceInode inode
  let found <- reading fun db => (db.xattrs.get (inode, name)).isSome
  rejectIf (policy = .create ∧ found) ⟨"xattr already exists", .constraint⟩
  rejectIf ((policy = .replace ∨ policy = .remove) ∧ !found) ⟨"xattr not found", .notFound⟩
  if policy = .remove then
    Tx.write fun db => db.deleteXattrs fun key => key = (inode, name)
  else
    rejectIf (value.length > maxXattrBytes) ⟨"xattr is larger than 64 KiB", .tooBig⟩
    Tx.write fun db => db.setXattr (inode, name) value
  Tx.write fun db => db.touchInode env inode
  commitMetadataChange env inode

end VexDB.VexFs
