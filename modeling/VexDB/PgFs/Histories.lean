import VexDB.PgFs.Evolution

/-!
# The history records the tree

The head of the three tables of recorded rows shows the live rows of every key that
is not marked dirty.  A capture at the head makes it show all of them and leaves
earlier commits as they are; a compaction makes no difference from its floor on.
-/

namespace VexDB.PgFs

open Storage Option Table
open VexFs (Bytes Name Kind DentryKey XattrKey DentryState)

/-- The live inodes of a tree, as the views show them. -/
def Tree.shownInode (tree : Tree) (inode : Nat) : Option Inode :=
  (tree.inodes.get inode).bind Inode.shown

/-- The history records a tree with a head commit. -/
structure Faithful (tree : Tree) (history : History) (head : Nat) : Prop where
  inodes : history.inodeStates.Recorded Inode.shown head (fun inode => inode ∈ tree.dirtyInodes)
    tree.shownInode
  dentries : history.dentryStates.Recorded shownDentry head
    (fun key => tree.dirtyDentries.get key ≠ none) tree.dentries.get
  xattrs : history.xattrStates.Recorded XattrState.shown head
    (fun key => tree.dirtyXattrs.get key ≠ none) tree.xattrs.get
  marked : ∀ inode ∈ tree.dirtyInodes, (tree.inodes.get inode).isSome
  known : ∀ inode time row, history.inodeStates.get (inode, time) = some row ->
    (tree.inodes.get inode).isSome
  snapshots : ∀ name row, history.snapshots.get name = some row ->
    row.commit <= head ∧ row.commit ∈ history.checkpoints

/-- Two histories show the same trees at a commit. -/
structure History.ShowsSame (history other : History) (commit : Nat) : Prop where
  inodes : ∀ inode,
    (other.snapshotInodes commit).get inode = (history.snapshotInodes commit).get inode
  dentries : ∀ key,
    (other.snapshotDentries commit).get key = (history.snapshotDentries commit).get key
  xattrs : ∀ key,
    (other.snapshotXattrs commit).get key = (history.snapshotXattrs commit).get key

/-- A history shows a tree at a commit. -/
structure History.Shows (history : History) (commit : Nat) (tree : Tree) : Prop where
  inodes : ∀ inode, (history.snapshotInodes commit).get inode = tree.shownInode inode
  dentries : ∀ key, (history.snapshotDentries commit).get key = tree.dentries.get key
  xattrs : ∀ key, (history.snapshotXattrs commit).get key = tree.xattrs.get key

namespace History

variable {history other third : History} {tree : Tree}

theorem ShowsSame.refl (history : History) (commit : Nat) : history.ShowsSame history commit :=
  ⟨fun _ => rfl, fun _ => rfl, fun _ => rfl⟩

theorem ShowsSame.trans (first : history.ShowsSame other commit)
    (second : other.ShowsSame third commit) : history.ShowsSame third commit where
  inodes inode := (second.inodes inode).trans (first.inodes inode)
  dentries key := (second.dentries key).trans (first.dentries key)
  xattrs key := (second.xattrs key).trans (first.xattrs key)

theorem ShowsSame.shows (same : history.ShowsSame other commit)
    (shows : history.Shows commit tree) : other.Shows commit tree where
  inodes inode := (same.inodes inode).trans (shows.inodes inode)
  dentries key := (same.dentries key).trans (shows.dentries key)
  xattrs key := (same.xattrs key).trans (shows.xattrs key)

/-- A compaction makes no difference from its floor on. -/
theorem showsSame_compact (history : History) (within : floor <= commit) :
    history.ShowsSame (history.compact floor) commit :=
  ⟨fun _ => get_view_flatten within, fun _ => get_view_flatten within,
    fun _ => get_view_flatten within⟩

end History

/-! ## Captured rows -/

namespace Tree

variable (tree : Tree) {key : DentryKey} {key : XattrKey}

theorem mem_capturedInodes :
    ((inode, time), row) ∈ tree.capturedInodes commit ↔ time = commit ∧
      (if inode ∈ tree.dirtyInodes then tree.inodes.get inode else none) = some row := by
  unfold capturedInodes
  simp only [List.mem_filterMap, map_eq_some_iff, Prod.mk.injEq]
  constructor
  · rintro ⟨_, dirty, _, stored, ⟨rfl, rfl⟩, rfl⟩
    exact ⟨rfl, by rw [if_pos dirty, stored]⟩
  · rintro ⟨rfl, found⟩
    split_ifs at found with dirty
    exact ⟨inode, dirty, row, found, ⟨rfl, rfl⟩, rfl⟩

/-- The row a capture records for a directory entry. -/
def capturedDentry (key : DentryKey) : Option DentryState :=
  (tree.dirtyDentries.get key).map fun before =>
    match tree.dentries.get key with
    | some inode => ⟨inode, false⟩
    | none => ⟨before, true⟩

theorem mem_capturedDentries :
    ((key, time), row) ∈ tree.capturedDentries commit ↔
      time = commit ∧ tree.capturedDentry key = some row :=
  mem_rowsAt tree.dirtyDentries _

/-- The row a capture records for an extended attribute. -/
def capturedXattr (key : XattrKey) : Option XattrState :=
  (tree.dirtyXattrs.get key).map fun before =>
    match tree.xattrs.get key with
    | some xattr => ⟨xattr, false⟩
    | none => ⟨before, true⟩

theorem mem_capturedXattrs :
    ((key, time), row) ∈ tree.capturedXattrs commit ↔
      time = commit ∧ tree.capturedXattr key = some row :=
  mem_rowsAt tree.dirtyXattrs _

theorem capturedDentry_shows (dirty : tree.dirtyDentries.get key ≠ none) :
    ∃ row, tree.capturedDentry key = some row ∧ shownDentry row = tree.dentries.get key := by
  obtain ⟨_, marked⟩ := ne_none_iff_exists'.1 dirty
  refine ⟨_, by rw [capturedDentry, marked, map_some], ?_⟩
  cases tree.dentries.get key with
  | none => rfl
  | some => rfl

theorem capturedXattr_shows (dirty : tree.dirtyXattrs.get key ≠ none) :
    ∃ row, tree.capturedXattr key = some row ∧ XattrState.shown row = tree.xattrs.get key := by
  obtain ⟨_, marked⟩ := ne_none_iff_exists'.1 dirty
  refine ⟨_, by rw [capturedXattr, marked, map_some], ?_⟩
  cases tree.xattrs.get key with
  | none => rfl
  | some => rfl

theorem capturedDentry_of_clean (clean : ¬ tree.dirtyDentries.get key ≠ none) :
    tree.capturedDentry key = none := by
  rw [capturedDentry, not_not.1 clean, map_none]

theorem capturedXattr_of_clean (clean : ¬ tree.dirtyXattrs.get key ≠ none) :
    tree.capturedXattr key = none := by
  rw [capturedXattr, not_not.1 clean, map_none]

end Tree

/-! ## Captures -/

/-- A capture leaves earlier commits as they are. -/
theorem History.showsSame_record (history : History) (tree : Tree)
    (earlier : commit < head) : history.ShowsSame (history.record tree head) commit where
  inodes inode := by
    refine get_view_setAll fun entry member => ?_
    rw [((tree.mem_capturedInodes).1 member).1]
    exact earlier
  dentries key := by
    refine get_view_setAll fun entry member => ?_
    rw [((tree.mem_capturedDentries).1 member).1]
    exact earlier
  xattrs key := by
    refine get_view_setAll fun entry member => ?_
    rw [((tree.mem_capturedXattrs).1 member).1]
    exact earlier

namespace Faithful

variable {tree : Tree} {history : History}

section

variable (faithful : Faithful tree history head)
include faithful

theorem capturedInode_shows (dirty : inode ∈ tree.dirtyInodes) :
    ∃ row, (if inode ∈ tree.dirtyInodes then tree.inodes.get inode else none) = some row ∧
      row.shown = tree.shownInode inode := by
  obtain ⟨row, stored⟩ := isSome_iff_exists.1 (faithful.marked inode dirty)
  refine ⟨row, by rw [if_pos dirty, stored], ?_⟩
  rw [Tree.shownInode, stored, bind_some]

/-- A capture at the head shows the tree. -/
theorem shows_record :
    (history.record tree head).Shows head tree where
  inodes := faithful.inodes.get_view_record (fun _ _ _ => tree.mem_capturedInodes)
    (fun _ => faithful.capturedInode_shows) fun _ clean => if_neg clean
  dentries := faithful.dentries.get_view_record (fun _ _ _ => tree.mem_capturedDentries)
    (fun _ => tree.capturedDentry_shows) fun _ => tree.capturedDentry_of_clean
  xattrs := faithful.xattrs.get_view_record (fun _ _ _ => tree.mem_capturedXattrs)
    (fun _ => tree.capturedXattr_shows) fun _ => tree.capturedXattr_of_clean

theorem record :
    Faithful tree.clean (history.record tree head) head where
  inodes := faithful.inodes.record (fun _ _ _ => tree.mem_capturedInodes)
    (fun _ => faithful.capturedInode_shows) (fun _ clean => if_neg clean) _
  dentries := faithful.dentries.record (fun _ _ _ => tree.mem_capturedDentries)
    (fun _ => tree.capturedDentry_shows) (fun _ => tree.capturedDentry_of_clean) _
  xattrs := faithful.xattrs.record (fun _ _ _ => tree.mem_capturedXattrs)
    (fun _ => tree.capturedXattr_shows) (fun _ => tree.capturedXattr_of_clean) _
  marked inode dirty := absurd dirty List.not_mem_nil
  known inode time row stored := by
    have recorded : (history.inodeStates.setAll (tree.capturedInodes head)).get (inode, time) =
        some row := stored
    rw [get_setAll_point _ fun _ _ _ => tree.mem_capturedInodes] at recorded
    by_cases dirty : inode ∈ tree.dirtyInodes
    · exact faithful.marked inode dirty
    · rw [if_neg dirty, none_or, ite_self] at recorded
      exact faithful.known inode time row recorded
  snapshots name row stored := by
    obtain ⟨bound, checked⟩ := faithful.snapshots name row stored
    exact ⟨bound, List.mem_insert_of_mem checked⟩

theorem evolve (evolves : tree.Evolves after) : Faithful after history head where
  inodes := faithful.inodes.evolve evolves.marksInodes fun inode clean => by
    rw [Tree.shownInode, evolves.inodes inode clean]
    rfl
  dentries := faithful.dentries.evolve
    (fun key dirty clean => dirty (evolves.marksDentries key clean))
    fun key clean => evolves.dentries key (not_not.1 clean)
  xattrs := faithful.xattrs.evolve (fun key dirty clean => dirty (evolves.marksXattrs key clean))
    fun key clean => evolves.xattrs key (not_not.1 clean)
  marked inode dirty := by
    rcases evolves.real inode dirty with before | present
    · exact evolves.keeps inode (faithful.marked inode before)
    · exact present
  known inode time row stored := evolves.keeps inode (faithful.known inode time row stored)
  snapshots := faithful.snapshots

theorem advance (within : head <= next) :
    Faithful tree history next where
  inodes := faithful.inodes.advance within
  dentries := faithful.dentries.advance within
  xattrs := faithful.xattrs.advance within
  __ := faithful
  snapshots name row stored :=
    (faithful.snapshots name row stored).imp_left fun bound => bound.trans within

theorem compact (within : floor <= head)
    (below : ∀ name row, history.snapshots.get name = some row -> floor <= row.commit) :
    Faithful tree (history.compact floor) head where
  inodes := faithful.inodes.flatten within
  dentries := faithful.dentries.flatten within
  xattrs := faithful.xattrs.flatten within
  marked := faithful.marked
  known inode time row stored := by
    have flat : (history.inodeStates.flatten Inode.shown floor).get (inode, time) = some row :=
      stored
    rw [get_flatten] at flat
    split_ifs at flat with here later
    · obtain ⟨found, _⟩ := filter_eq_some_iff.1 flat
      obtain ⟨last, _, recorded, _⟩ := (get_latest _ _ _ _).1 found
      exact faithful.known inode last row recorded
    · exact faithful.known inode time row flat
  snapshots name row stored := by
    obtain ⟨bound, checked⟩ := faithful.snapshots name row stored
    exact ⟨bound, List.mem_filter.2 ⟨checked, by simpa using below name row stored⟩⟩

/-- Changes of the table of snapshots that keep to the checkpoints. -/
theorem onSnapshots {snapshots : Table String Snapshot}
    (checked : ∀ name row, snapshots.get name = some row ->
      row.commit <= head ∧ row.commit ∈ history.checkpoints) :
    Faithful tree { history with snapshots := snapshots } head :=
  { faithful with snapshots := checked }

end

end Faithful

end VexDB.PgFs
