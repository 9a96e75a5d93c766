import VexDB.VexFs.Statements

/-!
# History rows and commits

A commit copies the current rows of the dirty keys into the history tables under
its id.  The rows of a file that has never been published are skipped, and they
stay dirty while the file is live.
-/

namespace VexDB.VexFs

open Storage

variable {H : Type}

namespace Db

/-- The inode is a file at version 0. -/
def pendingFile (db : Db H) (inode : Nat) : Bool :=
  (db.inodes.get inode).any Inode.unpublished

/-- The inode is a live file at version 0. -/
def livePendingFile (db : Db H) (inode : Nat) : Bool :=
  (db.inodes.get inode).any fun row => row.unpublished && row.live

/-- The inode an entry's history row is about: the one the entry points to now,
or else the one it pointed to when it was last marked. -/
def dentryTarget (db : Db H) (key : DentryKey) (marked : Nat) : Nat :=
  (db.dentries.get key).getD marked

/-- The inode rows a commit records. -/
def flushedInodes (db : Db H) (commit : Nat) : List ((Nat × Nat) × Inode) :=
  db.dirtyInodes.filterMap fun inode =>
    match db.inodes.get inode with
    | none => none
    | some row => if row.unpublished then none else some ((inode, commit), row)

/-- The entry rows a commit records. -/
def flushedDentries (db : Db H) (commit : Nat) : List ((DentryKey × Nat) × DentryState) :=
  db.dirtyDentries.entries.filterMap fun dirty =>
    if db.pendingFile (db.dentryTarget dirty.1 dirty.2) then none
    else some ((dirty.1, commit), ⟨db.dentryTarget dirty.1 dirty.2,
      (db.dentries.get dirty.1).isNone⟩)

/-- The extended attribute rows a commit records. -/
def flushedXattrs (db : Db H) (commit : Nat) : List ((XattrKey × Nat) × XattrState) :=
  db.dirtyXattrs.filterMap fun key =>
    if db.pendingFile key.1 then none
    else some ((key, commit), ⟨(db.xattrs.get key).getD [], (db.xattrs.get key).isNone⟩)

/-- The access control rows a commit records. -/
def flushedAcl (db : Db H) (commit : Nat) : List ((AclKey × Nat) × AclState) :=
  db.dirtyAcl.filterMap fun key =>
    if db.pendingFile key.inode then none
    else some ((key, commit),
      ⟨(db.aclEntries.get key).getD ⟨"", 0⟩, (db.aclEntries.get key).isNone⟩)

/-- `FlushHistoryChanges`. -/
def flushHistoryChanges (db : Db H) (commit : Nat) : Db H :=
  { db with
    inodeStates := db.inodeStates.setAll (db.flushedInodes commit)
    dentryStates := db.dentryStates.setAll (db.flushedDentries commit)
    xattrStates := db.xattrStates.setAll (db.flushedXattrs commit)
    aclStates := db.aclStates.setAll (db.flushedAcl commit)
    dirtyInodes := db.dirtyInodes.filter fun inode =>
      (db.inodes.get inode).any fun row =>
        !(row.kind ≠ .file || row.currentVersion > 0 || !row.live)
    dirtyDentries := db.dirtyDentries.filter fun key marked =>
      db.livePendingFile (db.dentryTarget key marked)
    dirtyXattrs := db.dirtyXattrs.filter fun key => db.livePendingFile key.1
    dirtyAcl := db.dirtyAcl.filter fun key => db.livePendingFile key.inode }

/-- The id of the next commit. -/
def nextCommit (db : Db H) : Nat := db.commits.fresh db.elsewhere.commit

/-- Insert the row of a commit. -/
def insertCommit (db : Db H) (env : Env) (commit : Nat) : Db H :=
  { db with
    commits := db.commits.set commit
      ⟨if db.workspace.headCommit = 0 then none else some db.workspace.headCommit, env.now⟩ }

/-- Make a commit the head. -/
def advanceHead (db : Db H) (commit : Nat) : Db H :=
  { db with
    workspace.headCommit := commit
    workspace.historyFloor := some (db.workspace.historyFloor.getD commit) }

end Db

/-- `CreateCommit`; the path and the session recorded with a commit for the log
are left out. -/
def createCommit (env : Env) : Sql H Nat := do
  let commit <- Tx.reading Db.nextCommit
  Tx.write fun db => db.insertCommit env commit
  Tx.write fun db => db.flushHistoryChanges commit
  Tx.write fun db => db.advanceHead commit
  return commit

end VexDB.VexFs
