import VexDB.VexFs.Db

/-!
# Row changes and their triggers

Every write to the inode, entry, extended attribute and access control tables
fires the history triggers, which mark the changed keys dirty, and a write to
the inode table also fires the usage triggers, which keep the counters of live
files and live bytes in the workspace row.  The definitions below are the forms
of statement the source uses on these tables, triggers included.
-/

namespace VexDB.VexFs

open Storage

variable {H : Type}

namespace Db

/-- What a row adds to the counter of live files. -/
def fileWeight (inode : Inode) : Int := if inode.counted then 1 else 0

/-- What a row adds to the counter of live bytes. -/
def byteWeight (inode : Inode) : Int := if inode.counted then inode.size else 0

/-- Insert an inode row. -/
def insertInode (db : Db H) (inode : Nat) (row : Inode) : Db H :=
  { db with
    inodes := db.inodes.set inode row
    dirtyInodes := db.dirtyInodes.insert inode
    workspace.liveFiles := db.workspace.liveFiles + fileWeight row
    workspace.liveBytes := db.workspace.liveBytes + byteWeight row }

/-- The rows an update statement on inodes changes, with what they become. -/
def changedInodes (db : Db H) (change : Nat -> Inode -> Option Inode) :
    List (Nat × Inode × Inode) :=
  db.inodes.entries.filterMap fun entry =>
    (change entry.1 entry.2).map fun row => (entry.1, entry.2, row)

/-- An update statement on inodes: `change` gives the new row of every row that
satisfies the statement's condition. -/
def updateInodes (db : Db H) (change : Nat -> Inode -> Option Inode) : Db H :=
  { db with
    inodes := db.inodes.update fun inode row => (change inode row).getD row
    dirtyInodes := (db.changedInodes change).foldl
      (fun dirty changed => dirty.insert changed.1) db.dirtyInodes
    workspace.liveFiles := db.workspace.liveFiles +
      ((db.changedInodes change).map fun changed =>
        fileWeight changed.2.2 - fileWeight changed.2.1).sum
    workspace.liveBytes := db.workspace.liveBytes +
      ((db.changedInodes change).map fun changed =>
        byteWeight changed.2.2 - byteWeight changed.2.1).sum }

/-- Update the row of one inode if it satisfies a condition. -/
def updateInodeIf (db : Db H) (inode : Nat) (condition : Inode -> Bool) (change : Inode -> Inode) :
    Db H :=
  db.updateInodes fun other row =>
    if other = inode ∧ condition row then some (change row) else none

/-- Update the row of one inode. -/
def updateInode (db : Db H) (inode : Nat) (change : Inode -> Inode) : Db H :=
  db.updateInodeIf inode (fun _ => true) change

/-- Insert a directory entry. -/
def insertDentry (db : Db H) (key : DentryKey) (inode : Nat) : Db H :=
  { db with
    dentries := db.dentries.set key inode
    dirtyDentries := db.dirtyDentries.set key inode }

/-- Delete a directory entry. -/
def deleteDentry (db : Db H) (key : DentryKey) : Db H :=
  match db.dentries.get key with
  | none => db
  | some inode =>
    { db with
      dentries := db.dentries.erase key
      dirtyDentries := db.dirtyDentries.set key inode }

/-- Delete every directory entry. -/
def clearDentries (db : Db H) : Db H :=
  { db with
    dentries := Table.empty
    dirtyDentries := db.dirtyDentries.setAll db.dentries.entries }

/-- Move the entry under one key to another key. -/
def moveDentry (db : Db H) (source target : DentryKey) : Db H :=
  match db.dentries.get source with
  | none => db
  | some inode =>
    { db with
      dentries := (db.dentries.erase source).set target inode
      dirtyDentries := (db.dirtyDentries.set source inode).set target inode }

/-- Store an extended attribute.  The trigger marks it only if its inode has a row. -/
def setXattr (db : Db H) (key : XattrKey) (value : Bytes) : Db H :=
  { db with
    xattrs := db.xattrs.set key value
    dirtyXattrs := if (db.inodes.get key.1).isSome then db.dirtyXattrs.insert key
      else db.dirtyXattrs }

/-- Delete the extended attributes that satisfy a condition. -/
def deleteXattrs (db : Db H) (condition : XattrKey -> Bool) : Db H :=
  { db with
    xattrs := db.xattrs.filter fun key _ => !condition key
    dirtyXattrs := (db.xattrs.keys.filter fun key =>
      condition key && (db.inodes.get key.1).isSome).foldl (fun dirty key => dirty.insert key)
        db.dirtyXattrs }

/-- Store an access control entry. -/
def setAcl (db : Db H) (key : AclKey) (row : AclRow) : Db H :=
  { db with
    aclEntries := db.aclEntries.set key row
    dirtyAcl := db.dirtyAcl.insert key }

/-- Delete the access control entries that satisfy a condition. -/
def deleteAcl (db : Db H) (condition : AclKey -> Bool) : Db H :=
  { db with
    aclEntries := db.aclEntries.filter fun key _ => !condition key
    dirtyAcl := (db.aclEntries.keys.filter condition).foldl (fun dirty key => dirty.insert key)
      db.dirtyAcl }

end Db

end VexDB.VexFs
