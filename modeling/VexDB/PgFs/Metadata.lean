import VexDB.PgFs.Names

/-!
# Attributes and access control lists

The functions that change the attributes of one inode, its extended attributes
and its access control set.  Each of them records a commit when it changes
something.
-/

namespace VexDB.PgFs

open Storage Tx
open VexFs (Bytes Name Kind XattrKey Effect slash)

variable {H : Type}

/-- The live row of an inode on which the caller has a permission. -/
def permittedInode (env : Env) (inode : Nat) (permission : Permission) : Sql H Inode := do
  requireWorkspace env permission
  requireInodePermission env inode permission
  require (fun db => db.tree.liveInode inode) ⟨"VEXFS_INODE_NOT_FOUND", "P0002"⟩

/-- Record a commit about an inode under its path. -/
def commitInode (inode : Nat) : Sql H Unit := do
  let path <- reading fun db : Db H => db.pathForInode inode
  let _ <- recordCommit (path.getD [slash])

/-- Change attributes of an inode and record a commit. -/
def changeAttributes (inode : Nat) (change : Inode -> Inode) : Sql H Unit := do
  onTree fun tree => tree.updateInode inode change
  commitInode inode

/-- `vexfs_set_mode`. -/
def setMode (env : Env) (inode mode : Nat) : Sql H Unit := do
  rejectIf (mode > 4095) ⟨"VEXFS_INVALID_MODE", "22023"⟩
  let row <- permittedInode env inode .metadata
  rejectIf (row.kind = .symlink) ⟨"VEXFS_INODE_NOT_FOUND_OR_SYMLINK", "P0002"⟩
  changeAttributes inode fun row => { row with mode := mode, changedAt := env.now }

/-- The times `vexfs_set_times` sets, by its mask. -/
structure Times where
  accessedAt : Option Nat
  modifiedAt : Option Nat
  deriving DecidableEq, Repr

/-- `vexfs_set_times`. -/
def setTimes (env : Env) (inode : Nat) (times : Times) : Sql H Unit := do
  rejectIf (times.accessedAt = none ∧ times.modifiedAt = none)
    ⟨"VEXFS_INVALID_TIME: invalid millisecond timestamp or mask", "22023"⟩
  let _ <- permittedInode env inode .metadata
  changeAttributes inode fun row =>
    { row with
      accessedAt := times.accessedAt.getD row.accessedAt
      modifiedAt := times.modifiedAt.getD row.modifiedAt
      changedAt := env.now }

/-- `vexfs_chown`; an argument of -1 is `none`. -/
def chown (env : Env) (inode : Nat) (uid gid : Option Nat) : Sql H Unit := do
  rejectIf (uid.any (fun id => decide (id > 4294967295)) ∨
      gid.any fun id => decide (id > 4294967295))
    ⟨"VEXFS_INVALID_OWNER: uid/gid must be -1 or 0..4294967295", "22023"⟩
  let _ <- permittedInode env inode .metadata
  changeAttributes inode fun row =>
    { row with uid := uid.getD row.uid, gid := gid.getD row.gid, changedAt := env.now }

/-- `vexfs_owner_set`. -/
def ownerSet (env : Env) (path : Bytes) (owner : String) : Sql H Unit := do
  rejectIf (owner = "" ∨ owner.utf8ByteSize > 255)
    ⟨"VEXFS_INVALID_OWNER: owner principal must be 1..255 bytes", "22023"⟩
  requireWorkspace env .admin
  let inode <- checked fun db => db.resolvePath env.user path
  let _ <- permittedInode env inode .admin
  onTree fun tree => tree.updateInode inode fun row =>
    { row with ownerPrincipal := owner, changedAt := env.now }
  let _ <- recordCommit path

/-- The policies of `vexfs_xattr_set`. -/
inductive XattrPolicy
  | set | create | replace | remove
  deriving DecidableEq, Repr

/-- `vexfs_xattr_set`. -/
def xattrSet (env : Env) (inode : Nat) (name : Name) (value : Bytes) (policy : XattrPolicy) :
    Sql H Unit := do
  rejectIf (name = [] ∨ name.length > 255 ∨ (policy ≠ .remove ∧ value.length > 65536))
    ⟨"VEXFS_INVALID_XATTR: invalid name, value, or policy", "22023"⟩
  let _ <- permittedInode env inode .metadata
  let present <- reading fun db : Db H => (db.tree.xattrs.get (inode, name)).isSome
  rejectIf (policy = .create ∧ present) ⟨"VEXFS_XATTR_EXISTS", "23505"⟩
  rejectIf ((policy = .replace ∨ policy = .remove) ∧ !present)
    ⟨"VEXFS_XATTR_NOT_FOUND", "P0002"⟩
  onTree fun tree =>
    if policy = .remove then tree.deleteXattrs fun key => key = (inode, name)
    else tree.setXattr (inode, name) ⟨value, env.now⟩
  changeAttributes inode fun row => { row with changedAt := env.now }

/-! ## Access control lists -/

/-- Give an inode an access control set and record a commit. -/
def assignAclSet (env : Env) (inode : Nat) (set : Option Nat) : Sql H Unit :=
  changeAttributes inode fun row => { row with aclSet := set, changedAt := env.now }

/-- Replace the access control list of an inode if that changes its set. -/
def replaceAcl (env : Env) (inode : Nat) (row : Inode) (acl : List AclEntry) : Sql H Unit := do
  let set <- getOrCreateAclSet acl
  if set = row.aclSet then return () else assignAclSet env inode set

/-- `vexfs_acl_set`. -/
def aclSet (env : Env) (inode : Nat) (acl : List AclEntry) : Sql H Unit := do
  let canonical <- checked fun _ => canonicalAcl acl
  let row <- permittedInode env inode .admin
  replaceAcl env inode row canonical

/-- `vexfs_acl_grant`. -/
def aclGrant (env : Env) (inode : Nat) (entry : AclEntry) : Sql H Unit := do
  rejectIf (!entry.valid) ⟨"VEXFS_INVALID_ACL: invalid grant", "22023"⟩
  let row <- permittedInode env inode .admin
  let before <- reading fun db : Db H => db.aclEntries inode
  replaceAcl env inode row ((before.filter fun other =>
    other.principal ≠ entry.principal || other.effect ≠ entry.effect) ++ [entry])

/-- `vexfs_acl_revoke`. -/
def aclRevoke (env : Env) (inode : Nat) (principal : String) (effect : Option Effect) :
    Sql H Unit := do
  let _ <- permittedInode env inode .admin
  let before <- reading fun db : Db H => db.aclEntries inode
  let revoked := fun entry : AclEntry =>
    entry.principal = principal && (effect = none || effect = some entry.effect)
  if before.any revoked then
    let set <- getOrCreateAclSet (before.filter fun entry => !revoked entry)
    assignAclSet env inode set
  else return ()

/-- `vexfs_acl_delete`. -/
def aclDelete (env : Env) (inode : Nat) : Sql H Unit := do
  let _ <- permittedInode env inode .admin
  let before <- reading fun db : Db H => db.aclEntries inode
  if before = [] then return () else assignAclSet env inode none

end VexDB.PgFs
