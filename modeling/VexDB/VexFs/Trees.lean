import Mathlib.Data.Finset.Image
import VexDB.Storage.History
import VexDB.VexFs.Metadata

/-!
# The tree of a workspace, now and at a commit

A tree maps paths to nodes.  `CurrentTree` walks the live tables and
`TreeAtCommit` walks the latest history rows that are not after a commit; both
walk level by level from the root, and both attach to every node the access
control entries and extended attributes of its inode and the version that holds
its content.
-/

namespace VexDB.VexFs

open Storage

/-- A path by its components. -/
abbrev Path := List Name

/-- The rows that a tree is made from; all inodes in it are live. -/
structure Image where
  root : Nat
  inodes : Table Nat Inode
  dentries : Table DentryKey Nat
  xattrs : Table XattrKey Bytes
  aclEntries : Table AclKey AclRow

/-- `SnapshotTreeNode`. -/
structure TreeNode where
  inode : Nat
  row : Inode
  canonicalVersion : Nat
  acl : Finset (AclKey × AclRow)
  xattrs : Finset (XattrKey × Bytes)
  deriving DecidableEq

/-- `SnapshotTree`: the nodes with their paths. -/
abbrev SnapshotTree := Finset (Path × TreeNode)

namespace Inode

/-- A file or a symbolic link with stored content. -/
def published (inode : Inode) : Bool := inode.kind ≠ .directory && decide (inode.currentVersion > 0)

end Inode

/-- The deepest level a walk reaches. -/
def maxDepth : Nat := 1024

namespace Image

/-- The inode is a directory of the image. -/
def isDirectory (image : Image) (inode : Nat) : Bool :=
  (image.inodes.get inode).any fun row => row.kind = .directory

/-- The entries of a directory that lead to an inode of the image. -/
def children (image : Image) (parent : Nat) : List (Name × Nat) :=
  image.dentries.entries.filterMap fun entry =>
    if entry.1.1 = parent ∧ (image.inodes.get entry.2).isSome then some (entry.1.2, entry.2)
    else none

/-- The places one level below some places. -/
def nextLevel (image : Image) (expand : Nat -> Bool) (level : List (Path × Nat)) :
    List (Path × Nat) :=
  level.flatMap fun place =>
    if expand place.2 then
      (image.children place.2).map fun child => (place.1 ++ [child.1], child.2)
    else []

/-- The places of a level and of some number of levels below it. -/
def levels (image : Image) (expand : Nat -> Bool) : Nat -> List (Path × Nat) -> List (Path × Nat)
  | _, [] => []
  | 0, level => level
  | depth + 1, level => level ++ image.levels expand depth (image.nextLevel expand level)

/-- The checks of `TreeAtCommit` on the places of one level: the directories
visited so far and those of the level. -/
def visitLevel (image : Image) (depth : Nat) :
    List (Path × Nat) -> List Nat -> Except SqlError (List Nat)
  | [], visited => .ok visited
  | place :: places, visited =>
    if image.isDirectory place.2 then
      if place.2 ∈ visited then
        .error ⟨"workspace history contains a directory cycle or duplicate inode", .corrupt⟩
      else if depth ≥ maxDepth ∧ image.dentries.keys.any fun key => key.1 = place.2 then
        .error ⟨"workspace history exceeds 1024 path components", .tooBig⟩
      else image.visitLevel depth places (place.2 :: visited)
    else image.visitLevel depth places visited

/-- The places at and below a level, each level checked before the next is made. -/
def checkedLevels (image : Image) :
    Nat -> Nat -> List Nat -> List (Path × Nat) -> Except SqlError (List (Path × Nat))
  | _, _, _, [] => .ok []
  | 0, _, _, level => .ok level
  | fuel + 1, depth, visited, level => do
    let visited <- image.visitLevel depth level visited
    let below <- image.checkedLevels fuel (depth + 1) visited
      (image.nextLevel image.isDirectory level)
    return level ++ below

/-- The rows at some places. -/
def nodes (image : Image) (places : List (Path × Nat)) : List (Path × Nat × Inode) :=
  places.filterMap fun place =>
    (image.inodes.get place.2).map fun row => (place.1, place.2, row)

/-- A node of a tree. -/
def treeNode (image : Image) (inode : Nat) (row : Inode) (canonicalVersion : Nat) : TreeNode where
  inode := inode
  row := row
  canonicalVersion := canonicalVersion
  acl := (image.aclEntries.filter fun key _ => key.inode = inode).rows
  xattrs := (image.xattrs.filter fun key _ => key.1 = inode).rows

end Image

variable {H : Type}

namespace Db

/-- The live rows. -/
def currentImage (db : Db H) : Image where
  root := db.workspace.rootInode
  inodes := db.inodes.filter fun _ row => row.live
  dentries := db.dentries
  xattrs := db.xattrs
  aclEntries := db.aclEntries

/-- The rows recorded for a commit. -/
def imageAt (db : Db H) (commit : Nat) : Image where
  root := db.workspace.rootInode
  inodes := (db.inodeStates.latest commit).filter fun _ row => row.live
  dentries := (db.dentryStates.latest commit).filterMap fun _ state =>
    if state.deleted then none else some state.inode
  xattrs := (db.xattrStates.latest commit).filterMap fun _ state =>
    if state.deleted then none else some state.value
  aclEntries := (db.aclStates.latest commit).filterMap fun _ state =>
    if state.deleted then none else some state.row

/-- Follow the sources of a version to the canonical one. -/
def followSource (db : Db H) (inode : Nat) : Nat -> Nat -> Option Nat
  | 0, _ => none
  | fuel + 1, number =>
    (db.versions.get (inode, number)).bind fun version =>
      match version.source with
      | none => some number
      | some source => db.followSource inode fuel source

/-- The canonical version of one node, where `some_published` says whether any
node of the tree has stored content: without any, `ResolveSnapshotCanonicalVersions`
leaves all canonical versions at 0. -/
def canonicalVersion (db : Db H) (some_published : Bool) (inode : Nat) (row : Inode) :
    Option Nat :=
  if !some_published then some 0
  else if row.published then db.followSource inode (maxDepth + 1) row.currentVersion
  else some row.currentVersion

/-- The tree at some places: `ResolveSnapshotCanonicalVersions` and the attributes. -/
def snapshotTree (db : Db H) (image : Image) (places : List (Path × Nat)) :
    Except SqlError SnapshotTree :=
  let nodes := image.nodes places
  let some_published := nodes.any fun node => node.2.2.published
  if nodes.all fun node => (db.canonicalVersion some_published node.2.1 node.2.2).isSome then
    .ok (nodes.map fun node =>
      (node.1, image.treeNode node.2.1 node.2.2
        ((db.canonicalVersion some_published node.2.1 node.2.2).getD 0))).toFinset
  else .error ⟨"workspace history references a missing or cyclic file version", .corrupt⟩

/-- `ValidateHistoryCommit`. -/
def validateHistoryCommit (db : Db H) (commit : Nat) : Except SqlError Unit :=
  if (db.commits.get commit).isNone then
    .error ⟨"workspace commit not found: " ++ toString commit, .notFound⟩
  else if db.workspace.historyFloor.getD 0 = 0 ∨ commit < db.workspace.historyFloor.getD 0 then
    .error ⟨"workspace history before commit " ++ toString (db.workspace.historyFloor.getD 0) ++
      " is not restorable", .notFound⟩
  else .ok ()

/-- The places of the live tree. -/
def currentPlaces (db : Db H) : List (Path × Nat) :=
  db.currentImage.levels (fun _ => true) maxDepth [([], db.workspace.rootInode)]

/-- `CurrentTree`. -/
def currentTree (db : Db H) : Except SqlError SnapshotTree :=
  if (db.currentImage.inodes.get db.workspace.rootInode).isNone then
    .error ⟨"workspace root is missing", .corrupt⟩
  else if db.currentPlaces.any fun place => db.currentImage.isDirectory place.2 &&
      decide (1 < (db.currentPlaces.map Prod.snd).count place.2) then
    .error ⟨"workspace contains a directory cycle or duplicate inode", .corrupt⟩
  else db.snapshotTree db.currentImage db.currentPlaces

/-- `TreeAtCommit`. -/
def treeAtCommit (db : Db H) (commit : Nat) : Except SqlError SnapshotTree := do
  db.validateHistoryCommit commit
  if ((db.imageAt commit).inodes.get db.workspace.rootInode).isNone then
    .error ⟨"workspace root is missing from history", .corrupt⟩
  else
    let places <- (db.imageAt commit).checkedLevels (maxDepth + 1) 0 []
      [([], db.workspace.rootInode)]
    db.snapshotTree (db.imageAt commit) places

end Db

end VexDB.VexFs
