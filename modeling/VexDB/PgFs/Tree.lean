import VexDB.PgFs.Db
import VexDB.Storage.Closure

/-!
# Row changes of the tree and their triggers

Every insert, update and delete on inodes, directory entries and extended
attributes fires a row trigger that marks the key dirty, and the statement
triggers on inodes keep the counters of live files and live bytes.  The
definitions are the forms of statement the functions use, triggers included.
-/

namespace VexDB.PgFs

open Storage
open VexFs (Bytes Name Kind DentryKey XattrKey)

/-- What a row adds to the counter of live files. -/
def Inode.fileWeight (inode : Inode) : Int := if inode.counted then 1 else 0

/-- What a row adds to the counter of live bytes. -/
def Inode.byteWeight (inode : Inode) : Int := if inode.counted then inode.size else 0

namespace Tree

/-- Insert an inode row. -/
def insertInode (tree : Tree) (inode : Nat) (row : Inode) : Tree :=
  { tree with
    inodes := tree.inodes.set inode row
    dirtyInodes := tree.dirtyInodes.insert inode
    liveFiles := tree.liveFiles + row.fileWeight
    liveBytes := tree.liveBytes + row.byteWeight }

/-- The rows an update statement on inodes changes, with what they become. -/
def changedInodes (tree : Tree) (change : Nat -> Inode -> Option Inode) :
    List (Nat × Inode × Inode) :=
  tree.inodes.entries.filterMap fun entry =>
    (change entry.1 entry.2).map fun row => (entry.1, entry.2, row)

/-- An update statement on inodes: `change` gives the new row of every row that
satisfies the statement's condition. -/
def updateInodes (tree : Tree) (change : Nat -> Inode -> Option Inode) : Tree :=
  { tree with
    inodes := tree.inodes.update fun inode row => (change inode row).getD row
    dirtyInodes := (tree.changedInodes change).foldl
      (fun dirty changed => dirty.insert changed.1) tree.dirtyInodes
    liveFiles := tree.liveFiles + ((tree.changedInodes change).map fun changed =>
      changed.2.2.fileWeight - changed.2.1.fileWeight).sum
    liveBytes := tree.liveBytes + ((tree.changedInodes change).map fun changed =>
      changed.2.2.byteWeight - changed.2.1.byteWeight).sum }

/-- Update the row of one inode. -/
def updateInode (tree : Tree) (inode : Nat) (change : Inode -> Inode) : Tree :=
  tree.updateInodes fun other row => if other = inode then some (change row) else none

/-- Update the rows that satisfy a condition to be no longer live. -/
def bury (tree : Tree) (now : Nat) (condition : Nat -> Inode -> Bool) : Tree :=
  tree.updateInodes fun inode row =>
    if condition inode row then some { row with live := false, changedAt := now } else none

/-- Set the modification and change times of an inode. -/
def touch (tree : Tree) (now : Nat) (inode : Nat) : Tree :=
  tree.updateInode inode fun row => { row with modifiedAt := now, changedAt := now }

/-- Insert a directory entry. -/
def insertDentry (tree : Tree) (key : DentryKey) (inode : Nat) : Tree :=
  { tree with
    dentries := tree.dentries.set key inode
    dirtyDentries := tree.dirtyDentries.set key inode }

/-- Delete the directory entries that satisfy a condition. -/
def deleteDentries (tree : Tree) (condition : DentryKey -> Bool) : Tree :=
  { tree with
    dentries := tree.dentries.filter fun key _ => !condition key
    dirtyDentries := tree.dirtyDentries.setAll
      (tree.dentries.entries.filter fun entry => condition entry.1) }

/-- Delete the directory entry under a key. -/
def deleteDentry (tree : Tree) (key : DentryKey) : Tree :=
  tree.deleteDentries fun other => other = key

/-- Move the entry under one key to another key. -/
def moveDentry (tree : Tree) (source target : DentryKey) : Tree :=
  match tree.dentries.get source with
  | none => tree
  | some inode =>
    { tree with
      dentries := (tree.dentries.erase source).set target inode
      dirtyDentries := (tree.dirtyDentries.set source inode).set target inode }

/-- Store an extended attribute. -/
def setXattr (tree : Tree) (key : XattrKey) (xattr : Xattr) : Tree :=
  { tree with
    xattrs := tree.xattrs.set key xattr
    dirtyXattrs := tree.dirtyXattrs.set key xattr }

/-- Delete the extended attributes that satisfy a condition. -/
def deleteXattrs (tree : Tree) (condition : XattrKey -> Bool) : Tree :=
  { tree with
    xattrs := tree.xattrs.filter fun key _ => !condition key
    dirtyXattrs := tree.dirtyXattrs.setAll
      (tree.xattrs.entries.filter fun entry => condition entry.1) }

/-- The inode row, if the inode is live. -/
def liveInode (tree : Tree) (inode : Nat) : Option Inode :=
  (tree.inodes.get inode).filter fun row => row.live

/-- Some entry leads to an inode. -/
def linked (tree : Tree) (inode : Nat) : Bool :=
  tree.dentries.entries.any fun entry => entry.2 = inode

/-- The parent and the target of every entry. -/
def edges (tree : Tree) : List (Nat × Nat) :=
  tree.dentries.entries.map fun entry => (entry.1.1, entry.2)

/-- The recursive query `subtree`: an inode and every inode that entries lead to
from it, without repetition. -/
def subtree (tree : Tree) (inode : Nat) : List Nat := closure tree.edges [inode]

/-- The rows of the recursive query `descendants` after some rounds, and those its
last round added; it keeps duplicates. -/
def descendants (tree : Tree) : Nat -> List Nat -> List Nat × List Nat
  | 0, level => (level, level)
  | rounds + 1, level =>
    let next := level.flatMap fun inode =>
      (tree.dentries.entries.filter fun entry => entry.1.1 = inode).map Prod.snd
    let (rows, last) := tree.descendants rounds next
    (level ++ rows, last)

end Tree

end VexDB.PgFs
